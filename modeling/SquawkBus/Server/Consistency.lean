import SquawkBus.Messages.WellFormed
import SquawkBus.Server.Departure
import SquawkBus.Server.Footprint

/-!
# A consistent hub

The hub calls interactors by their address, and nothing tells it when an address has gone out of
use but its own bookkeeping. The hub is `Consistent` with a set of `members` when every interactor
it may call is one of them, and every manager still lists what it has to clean up when a member
leaves. A message of a member keeps this, unless it makes the subscription manager lose track of
the member; a disconnect leaves a hub that is consistent with the other members.

The topics in the tables are also no longer than the `frames` in which they came, so that what is
forwarded on them can be serialized.
-/

namespace SquawkBus.Server

open SquawkBus.Messages SquawkBus.Serialization SquawkBus.Serialization.FrameStream

variable {ρ : Type} {members members' : Ptr → Prop} {frames : Nat}

/-! ## Subscriptions -/

namespace SubscriptionManager

structure Consistent (sm : SubscriptionManager) (members : Ptr → Prop) (frames : Nat) : Prop where
  tracks : ∀ i, sm.Tracks i
  topics : ∀ i t, Index.Has sm.subscriberTopics i t → members i ∧ t.length ≤ frames

variable {sm : SubscriptionManager}

theorem consistent_empty : empty.Consistent members frames where
  tracks _ := Table.mirrored_empty
  topics i t h := absurd h (Index.not_has_empty i t)

theorem Consistent.mono (h : sm.Consistent members frames) (hle : ∀ i, members i → members' i) :
    sm.Consistent members' frames where
  tracks := h.tracks
  topics i t hhas := (h.topics i t hhas).imp_left (hle i)

/-- The subscribers that are found are members. -/
theorem Consistent.cell (h : sm.Consistent members frames) {t : Bytes} {i : Ptr}
    (hcell : (Table.cell sm.subscriptions t i).isSome) : members i ∧ t.length ≤ frames :=
  h.topics i t (h.tracks i t hcell)

/-- A remove adds nothing to the reverse table. -/
theorem has_of_removeSubscription {i j : Ptr} {topic t : Bytes}
    (h : Index.Has (sm.removeSubscription i topic).1.subscriberTopics j t) :
    Index.Has sm.subscriberTopics j t := by
  rcases removeSubscription_cases sm i topic with ⟨-, hrem⟩ | ⟨c, -, -, hrem⟩ |
    ⟨c, -, -, -, hrem⟩ | ⟨c, -, -, -, hrem⟩ <;> rw [hrem] at h
  · exact h
  · exact h
  · exact ((Index.has_remove _ _ _ _ _).mp h).2
  · exact ((Index.has_remove _ _ _ _ _).mp h).2

theorem Consistent.onSubscription (h : sm.Consistent members frames) {i : Ptr} (hi : members i)
    {request : SubscriptionRequest} (hlength : request.topic.length ≤ frames)
    (hkeeps : request.isAdd = false → sm.KeepsTrack i request.topic) :
    (sm.onSubscription i request).1.Consistent members frames := by
  unfold SubscriptionManager.onSubscription
  split
  · refine ⟨fun j => (h.tracks j).add i request.topic, fun j t hhas => ?_⟩
    rw [subscriberTopics_addSubscription, Index.has_add] at hhas
    rcases hhas with ⟨rfl, rfl⟩ | hhas
    · exact ⟨hi, hlength⟩
    · exact h.topics j t hhas
  · next hremove =>
    refine ⟨fun j => (h.tracks j).remove fun hij => ?_, fun j t hhas => ?_⟩
    · rw [← hij]
      exact hkeeps (Bool.eq_false_iff.mpr hremove)
    · exact h.topics j t (has_of_removeSubscription hhas)

theorem Consistent.close (h : sm.Consistent members frames) (i : Ptr) :
    (sm.onInteractorClosed i).1.Consistent (fun j => i ≠ j ∧ members j) frames where
  tracks j := (h.tracks j).close i
  topics j t hhas := by
    obtain ⟨hne, hhas⟩ := ((closed_removeInteractor sm i).has j t).mp hhas
    obtain ⟨hj, hlength⟩ := h.topics j t hhas
    exact ⟨⟨hne, hj⟩, hlength⟩

/-- The departure of a client that is no member goes unnoticed. -/
theorem Consistent.notices_of_stranger (h : sm.Consistent members frames) {i : Ptr}
    (hi : ¬ members i) : (sm.onInteractorClosed i).2 = [] := by
  apply List.eq_nil_iff_forall_not_mem.mpr
  intro notice hnotice
  exact hi (h.topics i notice.topic (of_mem_removeInteractor hnotice).2).1

end SubscriptionManager

variable [RegexEngine ρ]

/-! ## Listeners -/

namespace NotificationManager

/-- Only patterns with a regular expression are looked at when listeners are called, and a
malformed pattern has none; so it does not matter that such a pattern is not listed. -/
structure Consistent (nm : NotificationManager ρ) (members : Ptr → Prop) : Prop where
  oneListener : nm.OneListener
  regexes : ∀ p ∈ nm.regexCache, (RegexEngine.compile p : Option ρ).isSome
  tracks : ∀ i, ∀ p ∈ nm.regexCache, (Table.cell nm.notifications p i).isSome →
    Index.Has nm.listenerTopicPatterns i p
  listeners : ∀ i p, Index.Has nm.listenerTopicPatterns i p → members i

variable {nm : NotificationManager ρ}

theorem consistent_empty : (empty : NotificationManager ρ).Consistent members where
  oneListener := oneListener_empty
  regexes p h := by simp [empty] at h
  tracks i p h := by simp [empty] at h
  listeners i p h := absurd h (Index.not_has_empty i p)

theorem Consistent.mono (h : nm.Consistent members) (hle : ∀ i, members i → members' i) :
    nm.Consistent members' where
  oneListener := h.oneListener
  regexes := h.regexes
  tracks := h.tracks
  listeners i p hhas := hle i (h.listeners i p hhas)

/-- The listeners that are called are members. -/
theorem Consistent.cell (h : nm.Consistent members) {p : Bytes} (hp : p ∈ nm.regexCache) {i : Ptr}
    (hcell : (Table.cell nm.notifications p i).isSome) : members i :=
  h.listeners i p (h.tracks i p hp hcell)

theorem Consistent.add (h : nm.Consistent members) (identify : Ptr → Identity) {i : Ptr}
    (hi : members i) (p : Bytes) (sm : SubscriptionManager) :
    (addListener identify nm i p sm).state.Consistent members := by
  have hadded : ∀ j q, Index.Has (Index.add nm.listenerTopicPatterns i p) j q → members j := by
    intro j q hhas
    rcases (Index.has_add _ _ _ _ _).mp hhas with ⟨rfl, rfl⟩ | hhas
    · exact hi
    · exact h.listeners j q hhas
  have hone := h.oneListener.add identify i p sm
  rcases addListener_cases identify nm i p sm with ⟨-, hnone, hadd⟩ |
    ⟨regex, -, hregex, -, hstate⟩ | ⟨-, -, hstate⟩
  · rw [hadd] at hone ⊢
    refine ⟨hone, h.regexes, fun j q hq hcell => ?_, h.listeners⟩
    rw [Outcome.fail_state, cell_new_row] at hcell
    split at hcell
    · -- The pattern that has just been refused is not in the cache.
      next heq =>
      have hsome := h.regexes q hq
      rw [← heq, hnone] at hsome
      cases hsome
    · exact h.tracks j q hq hcell
  · rw [hstate] at hone ⊢
    have hcached : ∀ q, q ∈ nm.regexCache.insertIfNew p regex → p = q ∨ q ∈ nm.regexCache := by
      intro q hq
      simpa [Std.ExtTreeMap.mem_insertIfNew] using hq
    refine ⟨hone, fun q hq => ?_, fun j q hq hcell => ?_, hadded⟩
    · rcases hcached q hq with rfl | hq
      · rw [hregex]
        rfl
      · exact h.regexes q hq
    · rw [cell_new_row] at hcell
      rw [Index.has_add]
      split at hcell
      · next heq => exact .inl ⟨hcell, heq⟩
      · next hne => exact .inr (h.tracks j q ((hcached q hq).resolve_left hne) hcell)
  · rw [hstate] at hone ⊢
    refine ⟨hone, h.regexes, fun j q hq hcell => ?_, hadded⟩
    exact (Index.has_add _ _ _ _ _).mpr (.inr (h.tracks j q hq hcell))

theorem Consistent.remove (h : nm.Consistent members) (i : Ptr) (p : Bytes) :
    (nm.removeListener i p).Consistent members := by
  have hone := h.oneListener.remove i p
  rcases h.oneListener.removeListener i p with hrem | hrem <;> rw [hrem] at hone ⊢
  · exact h
  · refine ⟨hone, fun q hq => ?_, fun j q hq hcell => ?_, fun j q hhas => ?_⟩
    · exact h.regexes q (Std.ExtTreeMap.mem_of_mem_erase hq)
    · rw [Table.cell_erase] at hcell
      split at hcell
      · cases hcell
      · next hne =>
        have hhas := h.tracks j q (Std.ExtTreeMap.mem_of_mem_erase hq) hcell
        exact (Index.has_remove _ _ _ _ _).mpr ⟨fun heq => hne heq.2, hhas⟩
    · exact h.listeners j q ((Index.has_remove _ _ _ _ _).mp hhas).2

theorem Consistent.onListen (h : nm.Consistent members) (identify : Ptr → Identity) {i : Ptr}
    (hi : members i) (request : NotificationRequest) (sm : SubscriptionManager) :
    (onListen identify nm i request sm).state.Consistent members := by
  unfold NotificationManager.onListen
  split
  · exact h.add identify hi request.topicPattern sm
  · exact h.remove i request.topicPattern

theorem Consistent.close (h : nm.Consistent members) (i : Ptr) :
    (nm.onInteractorClosed i).Consistent fun j => i ≠ j ∧ members j := by
  have hclosed := closed_onInteractorClosed nm i
  have hcached : ∀ q, q ∈ (nm.onInteractorClosed i).regexCache → q ∈ nm.regexCache := by
    intro q hq
    unfold NotificationManager.onInteractorClosed at hq
    split at hq
    · exact hq
    · exact mem_foldl_closePattern hq
  refine ⟨h.oneListener.close i, fun q hq => h.regexes q (hcached q hq), fun j q hq hcell => ?_,
    fun j q hhas => ?_⟩
  · rw [hclosed.cells] at hcell
    split at hcell
    · cases hcell
    · next hno =>
      have hhas := h.tracks j q (hcached q hq) hcell
      refine (hclosed.has j q).mpr ⟨?_, hhas⟩
      rintro rfl
      exact hno ⟨hhas, rfl⟩
  · obtain ⟨hne, hhas⟩ := (hclosed.has j q).mp hhas
    exact ⟨hne, h.listeners j q hhas⟩

end NotificationManager

/-! ## Publishers -/

namespace PublisherManager

structure Consistent (pm : PublisherManager ρ) (members : Ptr → Prop) (frames : Nat) : Prop where
  tracks : ∀ i, pm.Tracks i
  publishers : ∀ i ∈ pm.publisherTopics, members i
  topics : ∀ t i, Index.Has pm.topicPublishers t i → t.length ≤ frames
  noEmptyEntry : Index.NoEmptyEntry pm.topicPublishers

variable {pm pm' : PublisherManager ρ}

theorem consistent_new (am : AuthorizationManager ρ) : (new am).Consistent members frames where
  tracks _ := tracks_new am
  publishers i h := by simp [new] at h
  topics t i h := absurd h (Index.not_has_empty t i)
  noEmptyEntry := Index.noEmptyEntry_empty

theorem Consistent.mono (h : pm.Consistent members frames) (hle : ∀ i, members i → members' i) :
    pm.Consistent members' frames where
  tracks := h.tracks
  publishers i hi := hle i (h.publishers i hi)
  topics := h.topics
  noEmptyEntry := h.noEmptyEntry

theorem Consistent.of_tables (h : pm.Consistent members frames)
    (htopics : pm'.topicPublishers = pm.topicPublishers)
    (hpublishers : pm'.publisherTopics = pm.publisherTopics) :
    pm'.Consistent members frames where
  tracks i := (h.tracks i).of_tables htopics hpublishers
  publishers := by rw [hpublishers]; exact h.publishers
  topics := by rw [htopics]; exact h.topics
  noEmptyEntry := by rw [htopics]; exact h.noEmptyEntry

theorem Consistent.published (h : pm.Consistent members frames) {i : Ptr} (hi : members i)
    {topic : Bytes} (hlength : topic.length ≤ frames) (hpub : Published pm pm' i topic) :
    pm'.Consistent members frames where
  tracks j := (h.tracks j).published hpub
  publishers j hj := by
    rcases (hpub.keys j).mp hj with rfl | hj
    · exact hi
    · exact h.publishers j hj
  topics t j hhas := by
    rcases (hpub.topicPublishers t j).mp hhas with ⟨rfl, -⟩ | hhas
    · exact hlength
    · exact h.topics t j hhas
  noEmptyEntry := hpub.noEmptyEntry h.noEmptyEntry

theorem Consistent.close (h : pm.Consistent members frames) (identify : Ptr → Identity) (i : Ptr)
    (sm : SubscriptionManager) : (onInteractorClosed identify pm i sm).1.Consistent
      (fun j => i ≠ j ∧ members j) frames := by
  refine ⟨fun j => (h.tracks j).close identify i sm, ?_, ?_, ?_⟩ <;>
    rcases onInteractorClosed_cases identify pm i sm with ⟨hnone, hnop⟩ |
      ⟨-, hpublishers, htopics, hnoEmpty, -⟩
  · rw [hnop]
    intro j hj
    refine ⟨?_, h.publishers j hj⟩
    rintro rfl
    exact absurd hj (by simpa using hnone)
  · rw [hpublishers]
    intro j hj
    rw [Std.ExtTreeMap.mem_erase] at hj
    exact ⟨by simpa using hj.1, h.publishers j hj.2⟩
  · rw [hnop]
    exact h.topics
  · intro t j hhas
    exact h.topics t j ((htopics t j).mp hhas).2
  · rw [hnop]
    exact h.noEmptyEntry
  · exact hnoEmpty

/-- The departure of a client that is no member calls nobody. -/
theorem Consistent.calls_of_stranger (h : pm.Consistent members frames)
    (identify : Ptr → Identity) {i : Ptr} (hi : ¬ members i) (sm : SubscriptionManager) :
    (onInteractorClosed identify pm i sm).2 = [] := by
  have hnone : pm.publisherTopics[i]? = none := by
    by_contra hentry
    obtain ⟨topics, htopics⟩ := Option.ne_none_iff_exists'.mp hentry
    exact hi (h.publishers i (OrdMap.mem_iff_get.mpr ⟨topics, htopics⟩))
  unfold onInteractorClosed
  rw [hnone]

/-- The topics that lose their last publisher are short, like all others. -/
theorem Consistent.stale (h : pm.Consistent members frames) {i : Ptr} {topic : Bytes}
    (hstale : topic ∈ pm.staleTopics i) : topic.length ≤ frames := by
  obtain ⟨publishers, hrow, -⟩ := mem_staleTopics.mp hstale
  obtain ⟨p, hp⟩ := h.noEmptyEntry topic publishers hrow
  exact h.topics topic p ⟨publishers, hrow, hp⟩

end PublisherManager

/-! ## The hub -/

/-- The accessors of the interactors return short texts. -/
structure Identity.Fits (identity : Identity) (names : Nat) : Prop where
  user : identity.user.length ≤ names
  host : identity.host.length ≤ 2 ^ 10
  id : identity.id.length ≤ 2 ^ 10

/-- The message can be serialized, and its size is an `int`. -/
def Sendable (message : Message) : Prop := message.Fits ∧ message.encode.length < 2 ^ 31

/-- The topic that a request enters in the tables. -/
def topicOf : Message → Bytes
  | .subscriptionRequest request => request.topic
  | .unicastData request => request.topic
  | .multicastData request => request.topic
  | _ => []

theorem length_topicOf_le (message : Message) :
    (topicOf message).length ≤ message.encode.length := by
  cases message <;>
    simp only [topicOf, Message.encode, Message.encodeBody, encodeString, List.length_cons,
      List.length_append, List.length_nil] <;> omega

namespace Hub

/-- The managers are consistent, and no client is connected. -/
structure Consistent (hub : Hub ρ) (members : Ptr → Prop) (frames : Nat) : Prop where
  subscriptions : hub.subscriptionManager.Consistent members frames
  listeners : hub.notificationManager.Consistent members
  publishers : hub.publisherManager.Consistent members frames
  clients : hub.interactors = ∅

/-- The message does not make the subscription manager lose track of its sender. -/
def KeepsSubscriber (hub : Hub ρ) (i : Ptr) : Message → Prop
  | .subscriptionRequest request =>
      request.isAdd = false → hub.subscriptionManager.KeepsTrack i request.topic
  | _ => True

instance decidableKeepsSubscriber (hub : Hub ρ) (i : Ptr) :
    (message : Message) → Decidable (hub.KeepsSubscriber i message)
  | .subscriptionRequest request => inferInstanceAs (Decidable (request.isAdd = false →
      ∀ subscribers ∈ hub.subscriptionManager.subscriptions[request.topic]?,
        ∀ count ∈ subscribers[i]?, 0 < int (count - 1) ∨ (subscribers.erase i).isEmpty))
  | .notificationRequest _ | .unicastData _ | .multicastData _ | .authenticationRequest _
  | .authenticationResponse _ | .forwardedSubscriptionRequest _ | .forwardedMulticastData _
  | .forwardedUnicastData _ => isTrue trivial

variable {hub : Hub ρ} {identify : Ptr → Identity} {i : Ptr}

theorem consistent_new (am : AuthorizationManager ρ) : (new am).Consistent members frames where
  subscriptions := SubscriptionManager.consistent_empty
  listeners := NotificationManager.consistent_empty
  publishers := PublisherManager.consistent_new am
  clients := rfl

theorem Consistent.mono (h : hub.Consistent members frames) (hle : ∀ i, members i → members' i) :
    hub.Consistent members' frames where
  subscriptions := h.subscriptions.mono hle
  listeners := h.listeners.mono hle
  publishers := h.publishers.mono hle
  clients := h.clients

/-! ### Steps of the hub -/

/-- **A message of a member keeps the hub consistent.** -/
theorem Consistent.message (h : hub.Consistent members frames) (identify : Ptr → Identity)
    (hi : members i) {m : Message} (hlength : m.encode.length ≤ frames)
    (hkeeps : hub.KeepsSubscriber i m) :
    (hub.step identify (.message i m)).state.Consistent members frames := by
  have htopic := (length_topicOf_le m).trans hlength
  cases m with
  | subscriptionRequest request =>
      exact ⟨h.subscriptions.onSubscription hi htopic hkeeps, h.listeners, h.publishers, h.clients⟩
  | notificationRequest request =>
      exact ⟨h.subscriptions, h.listeners.onListen identify hi request _, h.publishers, h.clients⟩
  | unicastData request =>
      refine ⟨h.subscriptions, h.listeners, ?_, h.clients⟩
      rcases PublisherManager.onSendUnicast_tables identify hub.publisherManager i request
        hub.interactors with hsame | hpub
      · exact h.publishers.of_tables hsame.topicPublishers hsame.publisherTopics
      · exact h.publishers.published hi htopic hpub
  | multicastData request =>
      have hpub := (PublisherManager.onSendMulticast_spec identify hub.publisherManager i request
        hub.subscriptionManager).1
      exact ⟨h.subscriptions, h.listeners, h.publishers.published hi htopic hpub, h.clients⟩
  | _ => exact h

/-- **A disconnect leaves a hub that is consistent with the others.** -/
theorem Consistent.disconnected (h : hub.Consistent members frames) (identify : Ptr → Identity)
    (i : Ptr) : (hub.step identify (.disconnected i)).state.Consistent
      (fun j => i ≠ j ∧ members j) frames where
  subscriptions := h.subscriptions.close i
  listeners := h.listeners.close i
  publishers := h.publishers.close identify i _
  clients := interactors_step h.clients (by simp)

theorem Consistent.reload (h : hub.Consistent members frames) (identify : Ptr → Identity)
    (file : Bytes → Except Exn (List (AuthorizationSpec ρ))) :
    (hub.step identify (.reload file)).state.Consistent members frames := by
  show (hub.reload file).state.Consistent members frames
  unfold Hub.reload
  split
  · next pm hreload =>
    obtain ⟨am, -, rfl⟩ := PublisherManager.reloadAuthorizations_ok hreload
    exact ⟨h.subscriptions, h.listeners, h.publishers.of_tables rfl rfl, h.clients⟩
  · exact h

/-! ## The calls of a consistent hub -/

/-- Whom the hub knows is a member. -/
theorem Consistent.knows (h : hub.Consistent members frames) (hi : hub.Knows i) : members i := by
  rcases hi with ⟨t, hcell⟩ | ⟨p, hp, hcell⟩ | ⟨id, hid⟩
  · exact (h.subscriptions.cell hcell).1
  · exact h.listeners.cell hp hcell
  · simp [h.clients] at hid

/-- In a step that is about a member, only members are called. -/
theorem Consistent.calls (h : hub.Consistent members frames) {step : HubStep ρ}
    (hstep : ∀ j, step.interactor? = some j → members j) {c : Call}
    (hc : c ∈ (hub.step identify step).events) : members c.interactor := by
  rcases (step_calls hc).1 with hj | hknows
  · exact hstep _ hj
  · exact h.knows hknows

/-- When an interactor disconnects that is no member, it is only asked for its name and its id. -/
theorem Consistent.calls_of_stranger (h : hub.Consistent members frames) (hi : ¬ members i) :
    (hub.step identify (.disconnected i)).events = [.str i, .id i] := by
  simp only [step, onDisconnected, Outcome.emit_events, h.subscriptions.notices_of_stranger hi,
    h.publishers.calls_of_stranger identify hi, List.flatMap_nil, List.append_nil,
    List.singleton_append]

/-- **What a consistent hub sends can be serialized.** -/
theorem Consistent.sendable (h : hub.Consistent members frames) {names : Nat}
    (hnames : ∀ i, (identify i).Fits names) (hsize : names + frames + 2 ^ 12 < 2 ^ 31)
    {step : HubStep ρ}
    (hstep : ∀ j m, step = .message j m → m.Fits ∧ m.encode.length ≤ frames) {m : Message}
    (hs : Sends identify hub step i m) : Sendable m := by
  have hfits : ∀ i, (identify i).user.length < 2 ^ 32 ∧ (identify i).host.length < 2 ^ 32 ∧
      (identify i).id.length < 2 ^ 32 := by
    intro i
    obtain ⟨huser, hhost, hid⟩ := hnames i
    omega
  -- A notice about a subscriber, on a topic that is no longer than a frame.
  have hnotice : ∀ (subscriber : Ptr) (topic : Bytes) (isAdd : Bool), topic.length ≤ frames →
      Sendable (subscriptionNotice identify subscriber topic isAdd) := by
    intro subscriber topic isAdd htopic
    obtain ⟨huser, hhost, hid⟩ := hnames subscriber
    have htopic' : topic.length < 2 ^ 32 := by omega
    refine ⟨⟨(hfits _).1, (hfits _).2.1, (hfits _).2.2, htopic'⟩, ?_⟩
    simp only [subscriptionNotice, Message.encode, Message.encodeBody, encodeString,
      List.length_cons, List.length_append, length_networkLongToBuf, List.length_nil]
    omega
  cases hs with
  | subscription subscriber request _ isAdd =>
      exact hnotice subscriber request.topic isAdd
        ((length_topicOf_le _).trans (hstep _ _ rfl).2)
  | closed subscriber topic _ isAdd hhas =>
      exact hnotice subscriber topic isAdd (h.subscriptions.topics subscriber topic hhas).2
  | listen _ _ subscriber topic isAdd hcell =>
      exact hnotice subscriber topic isAdd (h.subscriptions.cell hcell).2
  | multicast publisher request _ packets hpackets _ =>
      obtain ⟨⟨htopic, hfit⟩, hlength⟩ := hstep _ _ rfl
      obtain ⟨huser, hhost, -⟩ := hnames publisher
      have hle := length_encodePackets_le hpackets
      refine ⟨⟨(hfits _).1, (hfits _).2.1, htopic, hfit.sublist hpackets⟩, ?_⟩
      simp only [Message.encode, Message.encodeBody, encodeString, List.length_cons,
        List.length_append, length_networkLongToBuf] at hlength ⊢
      omega
  | unicast publisher request _ _ packets hpackets _ =>
      obtain ⟨⟨hid, htopic, hfit⟩, hlength⟩ := hstep _ _ rfl
      obtain ⟨huser, hhost, -⟩ := hnames publisher
      have hle := length_encodePackets_le hpackets
      refine ⟨⟨(hfits _).1, (hfits _).2.1, hid, htopic, hfit.sublist hpackets⟩, ?_⟩
      simp only [Message.encode, Message.encodeBody, encodeString, List.length_cons,
        List.length_append, length_networkLongToBuf] at hlength ⊢
      omega
  | gone publisher topic _ hstale =>
      have htopic := h.publishers.stale hstale
      have htopic' : topic.length < 2 ^ 32 := by omega
      obtain ⟨huser, hhost, -⟩ := hnames publisher
      refine ⟨⟨(hfits _).1, (hfits _).2.1, htopic', (by decide : PacketsFit [])⟩, ?_⟩
      simp only [Message.encode, Message.encodeBody, encodeString, encodePackets, encodeVector,
        List.map_nil, List.flatten_nil, List.length_cons, List.length_append, List.length_nil,
        length_networkLongToBuf]
      omega

/-- A step ends in an exception only on a message, or when the authorizations are not loaded. -/
theorem fault_message {j : Ptr} {m : Message} {e : Exn}
    (h : (hub.step identify (.message j m)).fault = some e) : e.isStdException := by
  cases m with
  | notificationRequest request =>
      have hlisten : (hub.notificationManager.onListen identify j request
          hub.subscriptionManager).fault = some e := h
      unfold NotificationManager.onListen at hlisten
      split at hlisten
      · rcases NotificationManager.addListener_cases identify hub.notificationManager j
          request.topicPattern hub.subscriptionManager with ⟨-, -, hadd⟩ | ⟨-, -, -, hfault, -⟩ |
          ⟨-, hfault, -⟩
        · rw [hadd] at hlisten
          cases hlisten
          rfl
        · rw [hfault] at hlisten
          cases hlisten
        · rw [hfault] at hlisten
          cases hlisten
      · cases hlisten
  | _ => cases h <;> rfl

end Hub

end SquawkBus.Server
