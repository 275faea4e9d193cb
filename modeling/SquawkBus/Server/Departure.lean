import SquawkBus.Server.Hub
import SquawkBus.Library.Run

/-!
# Departed clients

What is left of a client in the hub once it has disconnected. Each manager cleans up through its
own reverse table, so it forgets a client completely when that table still lists everything
(`Tracks`). Two steps of the client itself can break this: listening to a new pattern that is
malformed, and giving up the last reference to a topic that others subscribe to.

A client that a manager `Lacks` stays unknown until it acts again.
-/

namespace SquawkBus.Server

open SquawkBus.Messages

variable {ρ : Type}

/-! ## Subscriptions -/

namespace SubscriptionManager

/-- The reverse table lists every topic the client is entered under. -/
def Tracks (sm : SubscriptionManager) (i : Ptr) : Prop :=
  Table.Mirrored sm.subscriptions sm.subscriberTopics i

/-- The client occurs in neither table. -/
def Lacks (sm : SubscriptionManager) (i : Ptr) : Prop :=
  Table.Absent sm.subscriptions sm.subscriberTopics i

/-- A remove of `i` on `topic` that does not lose track of it: the stored count stays positive, or
the client is the only subscriber. -/
def KeepsTrack (sm : SubscriptionManager) (i : Ptr) (topic : Bytes) : Prop :=
  ∀ subscribers ∈ sm.subscriptions[topic]?, ∀ count ∈ subscribers[i]?,
    0 < int (count - 1) ∨ (subscribers.erase i).isEmpty

variable {sm : SubscriptionManager} {i : Ptr}

theorem KeepsTrack.not_shared {topic : Bytes} (h : sm.KeepsTrack i topic) {c : Int}
    (hc : Table.cell sm.subscriptions topic i = some c) (hpos : ¬ 0 < int (c - 1)) {j : Ptr}
    (hj : i ≠ j) : Table.cell sm.subscriptions topic j = none := by
  obtain ⟨subscribers, hrow, hcount⟩ := Table.cell_eq_some.mp hc
  rcases h subscribers hrow c hcount with hstays | hempty
  · exact absurd hstays hpos
  · rw [Table.cell_of_row hrow]
    exact OrdMap.isEmpty_erase_iff.mp hempty j hj

theorem Tracks.add (h : sm.Tracks i) (j : Ptr) (topic : Bytes) :
    (sm.addSubscription j topic).1.Tracks i := by
  intro t hcell
  rw [subscriberTopics_addSubscription, Index.has_add]
  rw [cell_addSubscription] at hcell
  split at hcell
  · next heq => exact .inl ⟨heq.2, heq.1⟩
  · exact .inr (h t hcell)

theorem Tracks.remove (h : sm.Tracks i) {j : Ptr} {topic : Bytes}
    (hkeeps : j = i → sm.KeepsTrack i topic) : (sm.removeSubscription j topic).1.Tracks i := by
  rcases removeSubscription_cases sm j topic with ⟨-, hrem⟩ | ⟨c, -, -, hrem⟩ |
    ⟨c, -, -, -, hrem⟩ | ⟨c, hc, hpos, ⟨k, hk, hsome⟩, hrem⟩ <;> rw [hrem]
  · exact h
  · exact h
  · exact h.erase_remove j topic
  · intro t hcell
    refine (Index.has_remove _ _ _ _ _).mpr ⟨?_, h t hcell⟩
    rintro ⟨rfl, rfl⟩
    -- The row would still have another subscriber.
    rw [(hkeeps rfl).not_shared hc hpos hk] at hsome
    cases hsome

theorem Tracks.close (h : sm.Tracks i) (j : Ptr) : (sm.onInteractorClosed j).1.Tracks i :=
  Table.Mirrored.closed h (closed_removeInteractor sm j)

/-- **A tracked client is forgotten when it disconnects.** -/
theorem Tracks.lacks (h : sm.Tracks i) : (sm.onInteractorClosed i).1.Lacks i :=
  Table.Mirrored.absent h (closed_removeInteractor sm i)

theorem Lacks.onSubscription (h : sm.Lacks i) {j : Ptr} (hj : j ≠ i)
    (request : SubscriptionRequest) : (sm.onSubscription j request).1.Lacks i := by
  unfold SubscriptionManager.onSubscription
  split
  · refine ⟨fun t => ?_, fun hmem => ?_⟩
    · rw [cell_addSubscription, if_neg (fun heq => hj heq.2), h.cells t]
    · rw [subscriberTopics_addSubscription, Index.mem_add] at hmem
      exact hmem.elim hj h.entry
  · rcases removeSubscription_cases sm j request.topic with ⟨-, hrem⟩ | ⟨c, -, -, hrem⟩ |
      ⟨c, -, -, -, hrem⟩ | ⟨c, -, -, -, hrem⟩ <;> rw [hrem]
    · exact h
    · exact h
    · exact h.erase_remove j request.topic
    · exact h.remove j request.topic

theorem Lacks.close (h : sm.Lacks i) (j : Ptr) : (sm.onInteractorClosed j).1.Lacks i :=
  Table.Absent.closed h (closed_removeInteractor sm j)

end SubscriptionManager

/-! ## Listeners -/

namespace NotificationManager

/-- The reverse table lists every pattern the client is entered under. -/
def Tracks (nm : NotificationManager ρ) (i : Ptr) : Prop :=
  Table.Mirrored nm.notifications nm.listenerTopicPatterns i

/-- The client occurs in neither table. -/
def Lacks (nm : NotificationManager ρ) (i : Ptr) : Prop :=
  Table.Absent nm.notifications nm.listenerTopicPatterns i

/-! ### Rows of one listener -/

/-- No pattern is entered for two clients: a row is made for the client that comes first, and
later clients are not entered in it. -/
def OneListener (nm : NotificationManager ρ) : Prop :=
  ∀ p l l', (Table.cell nm.notifications p l).isSome →
    (Table.cell nm.notifications p l').isSome → l = l'

variable {nm : NotificationManager ρ} {i : Ptr}

theorem oneListener_empty : (empty : NotificationManager ρ).OneListener := by
  intro p l l' h
  simp [empty] at h

/-- The cells after a row has been made for `j`. -/
theorem cell_new_row (notifications : OrdMap Bytes (OrdMap Ptr Int)) (p q : Bytes) (j l : Ptr) :
    (Table.cell (notifications.insert p (Std.ExtTreeMap.insert ∅ j 1)) q l).isSome ↔
      if p = q then j = l else (Table.cell notifications q l).isSome := by
  rw [Table.cell_insert]
  by_cases hp : p = q
  · simp [hp, OrdMap.get_insert, Option.isSome_iff_exists]
  · simp [hp]

/-- The ways an add can change the tables, as far as clients are concerned. -/
theorem addListener_tables [RegexEngine ρ] (identify : Ptr → Identity)
    (nm : NotificationManager ρ) (j : Ptr) (p : Bytes) (sm : SubscriptionManager) :
    ((addListener identify nm j p sm).state.notifications = nm.notifications ∨
      (addListener identify nm j p sm).state.notifications =
        nm.notifications.insert p (Std.ExtTreeMap.insert ∅ j 1)) ∧
    ((addListener identify nm j p sm).state.listenerTopicPatterns =
        Index.add nm.listenerTopicPatterns j p ∨
      ((RegexEngine.compile p : Option ρ) = none ∧ p ∉ nm.notifications ∧
        (addListener identify nm j p sm).state.listenerTopicPatterns =
          nm.listenerTopicPatterns)) := by
  rcases addListener_cases identify nm j p sm with ⟨hrow, hnone, hadd⟩ |
    ⟨regex, -, -, -, hstate⟩ | ⟨-, -, hstate⟩
  · rw [hadd]
    exact ⟨.inr rfl, .inr ⟨hnone, by simpa using hrow, rfl⟩⟩
  · rw [hstate]
    exact ⟨.inr rfl, .inl rfl⟩
  · rw [hstate]
    exact ⟨.inl rfl, .inl rfl⟩

theorem OneListener.add [RegexEngine ρ] (h : nm.OneListener) (identify : Ptr → Identity)
    (j : Ptr) (p : Bytes) (sm : SubscriptionManager) :
    (addListener identify nm j p sm).state.OneListener := by
  intro q l l' hl hl'
  rcases (addListener_tables identify nm j p sm).1 with hrows | hrows <;> rw [hrows] at hl hl'
  · exact h q l l' hl hl'
  · rw [cell_new_row] at hl hl'
    split at hl
    · next heq =>
      rw [if_pos heq] at hl'
      exact hl.symm.trans hl'
    · next hne =>
      rw [if_neg hne] at hl'
      exact h q l l' hl hl'

theorem Tracks.add [RegexEngine ρ] (h : nm.Tracks i) (identify : Ptr → Identity) {j : Ptr}
    {p : Bytes} (sm : SubscriptionManager)
    (hkeeps : j = i → (RegexEngine.compile p : Option ρ).isSome ∨ p ∈ nm.notifications) :
    (addListener identify nm j p sm).state.Tracks i := by
  obtain ⟨hrows, hreverse⟩ := addListener_tables identify nm j p sm
  intro q hcell
  -- Entered before, or just now.
  have hentered : (p = q ∧ j = i) ∨ (Table.cell nm.notifications q i).isSome := by
    rcases hrows with hrows | hrows <;> rw [hrows] at hcell
    · exact .inr hcell
    · rw [cell_new_row] at hcell
      split at hcell
      · next heq => exact .inl ⟨heq, hcell⟩
      · exact .inr hcell
  rcases hreverse with hadd | ⟨hnone, hrow, hsame⟩
  · rw [hadd, Index.has_add]
    exact hentered.imp And.symm (h q)
  · rw [hsame]
    rcases hentered with ⟨-, hj⟩ | hcell
    · rcases hkeeps hj with hsome | hmem
      · rw [hnone] at hsome
        cases hsome
      · exact absurd hmem hrow
    · exact h q hcell

/-- The two ways a remove can change the tables, when no row has two listeners. -/
theorem OneListener.removeListener (h : nm.OneListener) (j : Ptr) (p : Bytes) :
    nm.removeListener j p = nm ∨
      nm.removeListener j p =
        { notifications := nm.notifications.erase p
          regexCache := nm.regexCache.erase p
          listenerTopicPatterns := Index.remove nm.listenerTopicPatterns j p } := by
  rcases removeListener_cases nm j p with ⟨-, hrem⟩ | ⟨c, -, -, hrem⟩ | ⟨c, -, -, -, hrem⟩ |
    ⟨c, hc, -, ⟨l, hl, hsome⟩, -⟩
  · exact .inl hrem
  · exact .inl hrem
  · exact .inr hrem
  · exact absurd (h p j l (Option.isSome_of_mem hc) hsome) hl

theorem OneListener.remove (h : nm.OneListener) (j : Ptr) (p : Bytes) :
    (nm.removeListener j p).OneListener := by
  rcases h.removeListener j p with hrem | hrem <;> rw [hrem]
  · exact h
  · intro q l l' hl hl'
    rw [Table.cell_erase] at hl hl'
    split at hl
    · cases hl
    · next hne =>
      rw [if_neg hne] at hl'
      exact h q l l' hl hl'

theorem Tracks.remove (h : nm.Tracks i) (hone : nm.OneListener) (j : Ptr) (p : Bytes) :
    (nm.removeListener j p).Tracks i := by
  rcases hone.removeListener j p with hrem | hrem <;> rw [hrem]
  · exact h
  · exact h.erase_remove j p

theorem OneListener.close (h : nm.OneListener) (j : Ptr) :
    (nm.onInteractorClosed j).OneListener := by
  intro p l l' hl hl'
  rw [(closed_onInteractorClosed nm j).cells] at hl hl'
  split at hl
  · cases hl
  · split at hl'
    · cases hl'
    · exact h p l l' hl hl'

theorem Tracks.close (h : nm.Tracks i) (j : Ptr) : (nm.onInteractorClosed j).Tracks i :=
  Table.Mirrored.closed h (closed_onInteractorClosed nm j)

/-- **A tracked listener is forgotten when it disconnects.** -/
theorem Tracks.lacks (h : nm.Tracks i) : (nm.onInteractorClosed i).Lacks i :=
  Table.Mirrored.absent h (closed_onInteractorClosed nm i)

theorem Lacks.onListen [RegexEngine ρ] (h : nm.Lacks i) (identify : Ptr → Identity) {j : Ptr}
    (hj : j ≠ i) (request : NotificationRequest) (sm : SubscriptionManager) :
    (onListen identify nm j request sm).state.Lacks i := by
  unfold NotificationManager.onListen
  split
  · obtain ⟨hrows, hreverse⟩ := addListener_tables identify nm j request.topicPattern sm
    refine ⟨fun p => Option.not_isSome_iff_eq_none.mp fun hcell => ?_, fun hmem => ?_⟩
    · rcases hrows with hrows | hrows <;> rw [hrows] at hcell
      · simp [h.cells p] at hcell
      · rw [cell_new_row] at hcell
        split at hcell
        · exact hj hcell
        · simp [h.cells p] at hcell
    · rcases hreverse with hadd | ⟨-, -, hsame⟩
      · rw [hadd, Index.mem_add] at hmem
        exact hmem.elim hj h.entry
      · rw [hsame] at hmem
        exact h.entry hmem
  · rcases removeListener_cases nm j request.topicPattern with ⟨-, hrem⟩ | ⟨c, -, -, hrem⟩ |
      ⟨c, -, -, -, hrem⟩ | ⟨c, -, -, -, hrem⟩ <;> rw [Outcome.done_state, hrem]
    · exact h
    · exact h
    · exact h.erase_remove j request.topicPattern
    · exact h.remove j request.topicPattern

theorem Lacks.close (h : nm.Lacks i) (j : Ptr) : (nm.onInteractorClosed j).Lacks i :=
  Table.Absent.closed h (closed_onInteractorClosed nm j)

end NotificationManager

variable [RegexEngine ρ]

/-! ## Publishers -/

namespace PublisherManager

/-- A publisher of some topic has an entry in the reverse table; only its presence matters, since
a disconnect goes through all the topics. -/
def Tracks (pm : PublisherManager ρ) (i : Ptr) : Prop :=
  ∀ t, Index.Has pm.topicPublishers t i → i ∈ pm.publisherTopics

/-- The client occurs in neither table. -/
structure Lacks (pm : PublisherManager ρ) (i : Ptr) : Prop where
  topicPublishers : ∀ t, ¬ Index.Has pm.topicPublishers t i
  publisherTopics : i ∉ pm.publisherTopics

variable {pm pm' : PublisherManager ρ} {i : Ptr}

theorem tracks_new (am : AuthorizationManager ρ) : (new am).Tracks i := by
  intro t h
  exact absurd h (Index.not_has_empty t i)

theorem Tracks.of_tables (h : pm.Tracks i) (htopics : pm'.topicPublishers = pm.topicPublishers)
    (hpublishers : pm'.publisherTopics = pm.publisherTopics) : pm'.Tracks i := by
  intro t hhas
  rw [htopics] at hhas
  rw [hpublishers]
  exact h t hhas

theorem Lacks.of_tables (h : pm.Lacks i) (htopics : pm'.topicPublishers = pm.topicPublishers)
    (hpublishers : pm'.publisherTopics = pm.publisherTopics) : pm'.Lacks i where
  topicPublishers := by rw [htopics]; exact h.topicPublishers
  publisherTopics := by rw [hpublishers]; exact h.publisherTopics

theorem Tracks.published (h : pm.Tracks i) {j : Ptr} {topic : Bytes}
    (hpub : Published pm pm' j topic) : pm'.Tracks i := by
  intro t hhas
  rw [hpub.keys]
  rcases (hpub.topicPublishers t i).mp hhas with ⟨-, hj⟩ | hhas
  · exact .inl hj
  · exact .inr (h t hhas)

theorem Lacks.published (h : pm.Lacks i) {j : Ptr} (hj : j ≠ i) {topic : Bytes}
    (hpub : Published pm pm' j topic) : pm'.Lacks i where
  topicPublishers t hhas := by
    rcases (hpub.topicPublishers t i).mp hhas with ⟨-, heq⟩ | hhas
    · exact hj heq
    · exact h.topicPublishers t hhas
  publisherTopics hmem := ((hpub.keys i).mp hmem).elim hj h.publisherTopics

/-- A unicast changes at most the caches, or registers its publisher. -/
theorem onSendUnicast_tables (identify : Ptr → Identity) (pm : PublisherManager ρ)
    (publisher : Ptr) (request : UnicastData) (interactors : OrdMap Bytes Ptr) :
    SameBut pm (onSendUnicast identify pm publisher request interactors).1 ∨
      Published pm (onSendUnicast identify pm publisher request interactors).1 publisher
        request.topic := by
  rcases onSendUnicast_cases identify pm publisher request interactors with hnop |
    ⟨receiver, -, hsame, -⟩ | ⟨receiver, packets, -, -, -, hsame, -⟩
  · rw [hnop]
    exact .inl (.refl pm)
  · exact .inl hsame
  · exact .inr ((published_addPublisher pm publisher request.topic).sameBut hsame)

theorem Tracks.close (h : pm.Tracks i) (identify : Ptr → Identity) (j : Ptr)
    (sm : SubscriptionManager) : (onInteractorClosed identify pm j sm).1.Tracks i := by
  rcases onInteractorClosed_cases identify pm j sm with ⟨-, hnop⟩ |
    ⟨-, hpublishers, htopics, -, -⟩
  · rwa [hnop]
  · intro t hhas
    obtain ⟨hne, hhas⟩ := (htopics t i).mp hhas
    rw [hpublishers, Std.ExtTreeMap.mem_erase]
    exact ⟨by simpa using hne, h t hhas⟩

/-- **A tracked publisher is forgotten when it disconnects.** -/
theorem Tracks.lacks (h : pm.Tracks i) (identify : Ptr → Identity) (sm : SubscriptionManager) :
    (onInteractorClosed identify pm i sm).1.Lacks i := by
  rcases onInteractorClosed_cases identify pm i sm with ⟨hnone, hnop⟩ |
    ⟨-, hpublishers, htopics, -, -⟩
  · have hentry : i ∉ pm.publisherTopics := by simpa using hnone
    rw [hnop]
    exact ⟨fun t hhas => hentry (h t hhas), hentry⟩
  · refine ⟨fun t hhas => ((htopics t i).mp hhas).1 rfl, ?_⟩
    rw [hpublishers]
    simp

theorem Lacks.close (h : pm.Lacks i) (identify : Ptr → Identity) (j : Ptr)
    (sm : SubscriptionManager) : (onInteractorClosed identify pm j sm).1.Lacks i := by
  rcases onInteractorClosed_cases identify pm j sm with ⟨-, hnop⟩ |
    ⟨-, hpublishers, htopics, -, -⟩
  · rwa [hnop]
  · refine ⟨fun t hhas => h.topicPublishers t ((htopics t i).mp hhas).2, fun hmem => ?_⟩
    rw [hpublishers] at hmem
    exact h.publisherTopics (Std.ExtTreeMap.mem_of_mem_erase hmem)

end PublisherManager

/-! ## The hub -/

namespace Hub

/-- The reverse tables of all three managers are complete for `i`, and its entry among the
clients, if any, is the one its disconnect erases. -/
structure Tracks (identify : Ptr → Identity) (i : Ptr) (hub : Hub ρ) : Prop where
  subscriptions : hub.subscriptionManager.Tracks i
  listeners : hub.notificationManager.Tracks i
  oneListener : hub.notificationManager.OneListener
  publishers : hub.publisherManager.Tracks i
  clients : ∀ id : Bytes, hub.interactors[id]? = some i → (identify i).id = id

/-- The interactor occurs in none of the hub's tables. -/
structure Lacks (hub : Hub ρ) (i : Ptr) : Prop where
  subscriptions : hub.subscriptionManager.Lacks i
  listeners : hub.notificationManager.Lacks i
  publishers : hub.publisherManager.Lacks i
  clients : ∀ id : Bytes, hub.interactors[id]? ≠ some i

/-- The two steps by which `i` itself makes a reverse table incomplete are excluded: giving up
the last reference to a shared topic, and listening to a new pattern that is malformed. -/
def KeepsTrack (i : Ptr) (hub : Hub ρ) : HubStep ρ → Prop
  | .message j (.subscriptionRequest request) =>
      j = i → request.isAdd = false → hub.subscriptionManager.KeepsTrack i request.topic
  | .message j (.notificationRequest request) =>
      j = i → request.isAdd → (RegexEngine.compile request.topicPattern : Option ρ).isSome ∨
        request.topicPattern ∈ hub.notificationManager.notifications
  | _ => True

theorem tracks_new (identify : Ptr → Identity) (i : Ptr) (am : AuthorizationManager ρ) :
    (new am).Tracks identify i where
  subscriptions := Table.mirrored_empty
  listeners := Table.mirrored_empty
  oneListener := NotificationManager.oneListener_empty
  publishers := PublisherManager.tracks_new am
  clients id h := by simp [new] at h

variable {identify : Ptr → Identity} {i : Ptr} {hub : Hub ρ}

/-- The clients after a connection. -/
theorem client_of_connected {id : Bytes} {j k : Ptr}
    (h : (hub.onConnected identify j).state.interactors[id]? = some k) :
    ((identify j).id = id ∧ j = k) ∨ hub.interactors[id]? = some k := by
  have hget : (hub.interactors.insertIfNew (identify j).id j)[id]? = some k := h
  rw [OrdMap.get_insertIfNew] at hget
  split at hget
  · next hid => exact .inl ⟨hid.1, Option.some.inj hget⟩
  · exact .inr hget

/-- The clients after a disconnect. -/
theorem client_of_disconnected {id : Bytes} {j k : Ptr}
    (h : (hub.onDisconnected identify j).state.interactors[id]? = some k) :
    (identify j).id ≠ id ∧ hub.interactors[id]? = some k := by
  have hget : (hub.interactors.erase (identify j).id)[id]? = some k := h
  exact OrdMap.get_of_erase hget

theorem Tracks.step (h : hub.Tracks identify i) {s : HubStep ρ} (hkeeps : hub.KeepsTrack i s) :
    (hub.step identify s).state.Tracks identify i := by
  cases s with
  | message j m =>
      cases m with
      | subscriptionRequest request =>
          refine ⟨?_, h.listeners, h.oneListener, h.publishers, h.clients⟩
          show (hub.subscriptionManager.onSubscription j request).1.Tracks i
          unfold SubscriptionManager.onSubscription
          split
          · exact h.subscriptions.add j request.topic
          · next hremove =>
            exact h.subscriptions.remove fun hj => hkeeps hj (Bool.eq_false_iff.mpr hremove)
      | notificationRequest request =>
          refine ⟨h.subscriptions, ?_, ?_, h.publishers, h.clients⟩
          · show (hub.notificationManager.onListen identify j request _).state.Tracks i
            unfold NotificationManager.onListen
            split
            · next hadd => exact h.listeners.add identify _ fun hj => hkeeps hj hadd
            · exact h.listeners.remove h.oneListener j request.topicPattern
          · show (hub.notificationManager.onListen identify j request _).state.OneListener
            unfold NotificationManager.onListen
            split
            · exact h.oneListener.add identify j request.topicPattern _
            · exact h.oneListener.remove j request.topicPattern
      | unicastData request =>
          refine ⟨h.subscriptions, h.listeners, h.oneListener, ?_, h.clients⟩
          rcases PublisherManager.onSendUnicast_tables identify hub.publisherManager j request
            hub.interactors with hsame | hpub
          · exact h.publishers.of_tables hsame.topicPublishers hsame.publisherTopics
          · exact h.publishers.published hpub
      | multicastData request =>
          exact ⟨h.subscriptions, h.listeners, h.oneListener,
            h.publishers.published (PublisherManager.onSendMulticast_spec identify
              hub.publisherManager j request hub.subscriptionManager).1, h.clients⟩
      | _ => exact h
  | connected j =>
      refine ⟨h.subscriptions, h.listeners, h.oneListener, h.publishers, fun id hid => ?_⟩
      rcases client_of_connected hid with ⟨heq, rfl⟩ | hid
      · exact heq
      · exact h.clients id hid
  | disconnected j =>
      exact ⟨h.subscriptions.close j, h.listeners.close j, h.oneListener.close j,
        h.publishers.close identify j _,
        fun id hid => h.clients id (client_of_disconnected hid).2⟩
  | reload file =>
      show (hub.reload file).state.Tracks identify i
      unfold reload
      split
      · next pm hreload =>
        obtain ⟨am, -, rfl⟩ := PublisherManager.reloadAuthorizations_ok hreload
        exact ⟨h.subscriptions, h.listeners, h.oneListener, h.publishers.of_tables rfl rfl,
          h.clients⟩
      · exact h

/-- **A tracked client is forgotten by the whole hub when it disconnects.** -/
theorem Tracks.lacks (h : hub.Tracks identify i) :
    (hub.onDisconnected identify i).state.Lacks i where
  subscriptions := h.subscriptions.lacks
  listeners := h.listeners.lacks
  publishers := h.publishers.lacks identify _
  clients id hid := by
    obtain ⟨hne, hget⟩ := client_of_disconnected hid
    exact hne (h.clients id hget)

/-- What the hub has forgotten, the steps of others do not bring back. -/
theorem Lacks.step (h : hub.Lacks i) {s : HubStep ρ} (hs : s.interactor? ≠ some i) :
    (hub.step identify s).state.Lacks i := by
  cases s with
  | message j m =>
      have hj : j ≠ i := fun heq => hs (congrArg some heq)
      cases m with
      | subscriptionRequest request =>
          exact ⟨h.subscriptions.onSubscription hj request, h.listeners, h.publishers, h.clients⟩
      | notificationRequest request =>
          exact ⟨h.subscriptions, h.listeners.onListen identify hj request _, h.publishers,
            h.clients⟩
      | unicastData request =>
          refine ⟨h.subscriptions, h.listeners, ?_, h.clients⟩
          rcases PublisherManager.onSendUnicast_tables identify hub.publisherManager j request
            hub.interactors with hsame | hpub
          · exact h.publishers.of_tables hsame.topicPublishers hsame.publisherTopics
          · exact h.publishers.published hj hpub
      | multicastData request =>
          exact ⟨h.subscriptions, h.listeners,
            h.publishers.published hj (PublisherManager.onSendMulticast_spec identify
              hub.publisherManager j request hub.subscriptionManager).1, h.clients⟩
      | _ => exact h
  | connected j =>
      refine ⟨h.subscriptions, h.listeners, h.publishers, fun id hid => ?_⟩
      rcases client_of_connected hid with ⟨-, rfl⟩ | hid
      · exact hs rfl
      · exact h.clients id hid
  | disconnected j =>
      exact ⟨h.subscriptions.close j, h.listeners.close j, h.publishers.close identify j _,
        fun id hid => h.clients id (client_of_disconnected hid).2⟩
  | reload file =>
      show (hub.reload file).state.Lacks i
      unfold reload
      split
      · next pm hreload =>
        obtain ⟨am, -, rfl⟩ := PublisherManager.reloadAuthorizations_ok hreload
        exact ⟨h.subscriptions, h.listeners, h.publishers.of_tables rfl rfl, h.clients⟩
      · exact h

theorem Lacks.not_knows (h : hub.Lacks i) : ¬ hub.Knows i := by
  rintro (⟨t, hcell⟩ | ⟨p, -, hcell⟩ | ⟨id, hid⟩)
  · simp [h.subscriptions.cells t] at hcell
  · simp [h.listeners.cells p] at hcell
  · exact h.clients id hid

/-- A hub that lacks an interactor does not call it in the steps of others. -/
theorem Lacks.calls (h : hub.Lacks i) {steps : List (HubStep ρ)}
    (hsteps : ∀ s ∈ steps, s.interactor? ≠ some i) :
    ∀ c ∈ hub.calls identify steps, c.interactor ≠ i := by
  induction steps generalizing hub with
  | nil => exact fun c hc => absurd hc (List.not_mem_nil)
  | cons s steps ih =>
      intro c hc hci
      rcases List.mem_append.mp hc with hc | hc
      · rcases (step_calls hc).1 with hs | hknows
        · exact hsteps s (by simp) (by rw [hs, hci])
        · exact h.not_knows (hci ▸ hknows)
      · exact ih (h.step (hsteps s (by simp))) (fun s' hs' => hsteps s' (by simp [hs'])) c hc hci

instance decidableKeepsTrack (i : Ptr) (hub : Hub ρ) : (s : HubStep ρ) →
    Decidable (hub.KeepsTrack i s)
  | .message j (.subscriptionRequest request) =>
      inferInstanceAs (Decidable (j = i → request.isAdd = false →
        ∀ subscribers ∈ hub.subscriptionManager.subscriptions[request.topic]?,
          ∀ count ∈ subscribers[i]?, 0 < int (count - 1) ∨ (subscribers.erase i).isEmpty))
  | .message j (.notificationRequest request) =>
      inferInstanceAs (Decidable (j = i → request.isAdd →
        (RegexEngine.compile request.topicPattern : Option ρ).isSome ∨
          request.topicPattern ∈ hub.notificationManager.notifications))
  | .message _ (.unicastData _) | .message _ (.multicastData _)
  | .message _ (.authenticationRequest _) | .message _ (.authenticationResponse _)
  | .message _ (.forwardedSubscriptionRequest _) | .message _ (.forwardedMulticastData _)
  | .message _ (.forwardedUnicastData _) | .connected _ | .disconnected _ | .reload _ =>
      isTrue trivial

/-! ## Runs -/

/-- **No reference to a departed client survives**, if the client itself never gave up the last
reference to a shared topic and never listened to a new malformed pattern: from its disconnect on
the hub has it in no table and calls nothing on it, whatever the others do. -/
theorem departed_forgotten (identify : Ptr → Identity) (am : AuthorizationManager ρ) (i : Ptr)
    (before later : List (HubStep ρ))
    (hbefore : Run.Meets (fun hub s => (hub.step identify s).state) (KeepsTrack i) (new am) before)
    (hlater : ∀ s ∈ later, s.interactor? ≠ some i) :
    (∀ pre, pre <+: later →
      ((new am).after identify (before ++ .disconnected i :: pre)).Lacks i) ∧
    ∀ c ∈ ((new am).after identify (before ++ [.disconnected i])).calls identify later,
      c.interactor ≠ i := by
  have htracks : ((new am).after identify before).Tracks identify i :=
    Run.invariant (fun _ _ h hkeeps => h.step hkeeps) (tracks_new identify i am) hbefore
  have hlacks : ((new am).after identify (before ++ [.disconnected i])).Lacks i := by
    rw [after_append]
    exact htracks.lacks
  refine ⟨?_, hlacks.calls hlater⟩
  refine Run.prefix_induction later hlacks fun pre s hpre ih => ?_
  have hs : s.interactor? ≠ some i := hlater s (hpre.subset (by simp))
  have hafter : before ++ .disconnected i :: (pre ++ [s]) =
      (before ++ .disconnected i :: pre) ++ [s] := by simp
  rw [hafter, after_append]
  exact ih.step hs

/-- Client 1 subscribes, listens, publishes and unsubscribes before it disconnects. -/
theorem departed_forgotten_of_full_life :
    let before : List (HubStep PlainRegex) :=
      [.connected 1, .message 1 (.subscriptionRequest ⟨ascii "A", true⟩),
        .message 2 (.subscriptionRequest ⟨ascii "B", true⟩),
        .message 1 (.notificationRequest ⟨ascii ".*", true⟩),
        .message 1 (.multicastData ⟨ascii "B", []⟩),
        .message 1 (.subscriptionRequest ⟨ascii "A", false⟩)]
    let later : List (HubStep PlainRegex) :=
      [.message 2 (.multicastData ⟨ascii "A", []⟩),
        .message 2 (.subscriptionRequest ⟨ascii "A", true⟩)]
    (∀ pre, pre <+: later →
      ((new (.new none [])).after numbered (before ++ .disconnected 1 :: pre)).Lacks 1) ∧
    ∀ c ∈ ((new (.new none [])).after numbered (before ++ [.disconnected 1])).calls numbered later,
      c.interactor ≠ 1 :=
  departed_forgotten numbered (.new none []) 1 _ _ (by decide) (by decide)

/-- Clients 1 and 2 share a topic; client 1 unsubscribes and disconnects. It is still in the table
of subscriptions, and the next message on the topic is sent to it. -/
theorem departed_client_called :
    let before : List (HubStep PlainRegex) :=
      [.message 1 (.subscriptionRequest ⟨ascii "A", true⟩),
        .message 2 (.subscriptionRequest ⟨ascii "A", true⟩),
        .message 1 (.subscriptionRequest ⟨ascii "A", false⟩)]
    let hub : Hub PlainRegex := (new (.new none [])).after numbered (before ++ [.disconnected 1])
    ¬ hub.Lacks 1 ∧
    Call.send 1 (.forwardedMulticastData ⟨[2], ascii "host", ascii "A", []⟩) ∈
      hub.calls numbered [.message 2 (.multicastData ⟨ascii "A", []⟩)] := by
  refine ⟨fun h => ?_, by decide⟩
  have hcell := h.subscriptions.cells (ascii "A")
  revert hcell
  decide

end Hub

end SquawkBus.Server
