import SquawkBus.Server.Authorization
import SquawkBus.Server.SubscriptionManager
import Mathlib.Data.Finset.Lattice.Lemmas

/-!
# `PublisherManager`

Forwards the data of publishers to the clients entitled to it, and remembers who has published on
which topic, in a table and its reverse, so that subscribers can be told when the last publisher
of a topic disconnects.

The entitlements a query returns do not depend on the cache behind them, so only the
authorizations in force matter to what is sent; the cache is threaded through all the same.
-/

namespace SquawkBus.Server

open SquawkBus.Messages

/-! ## The tables -/

variable {ρ : Type} [RegexEngine ρ]

/-- `get_authorized_data`. -/
def getAuthorizedData (dataPackets : List DataPacket) (entitlements : Finset Int32) :
    List DataPacket :=
  dataPackets.filter fun dataPacket => dataPacket.isAuthorized entitlements

structure PublisherManager (ρ : Type) [RegexEngine ρ] where
  authorizationManager : AuthorizationManager ρ
  topicPublishers : OrdMap Bytes (OrdSet Ptr)
  publisherTopics : OrdMap Ptr (OrdSet Bytes)

namespace PublisherManager

/-- The constructor: nobody has published. -/
def new (authorizationManager : AuthorizationManager ρ) : PublisherManager ρ :=
  ⟨authorizationManager, ∅, ∅⟩

def addPublisher (pm : PublisherManager ρ) (publisher : Ptr) (topic : Bytes) :
    PublisherManager ρ :=
  { pm with
    topicPublishers := Index.add pm.topicPublishers topic publisher
    publisherTopics := Index.add pm.publisherTopics publisher topic }

/-- `authorization_manager_.entitlements(user, topic, role)`. -/
def entitlements (pm : PublisherManager ρ) (user topic : Bytes) (role : Role) :
    Finset Int32 × PublisherManager ρ :=
  let answer := pm.authorizationManager.entitlements user topic role
  (answer.1, { pm with authorizationManager := answer.2 })

/-! ## The operations -/

def onSendUnicast (identify : Ptr → Identity) (pm : PublisherManager ρ) (publisher : Ptr)
    (request : UnicastData) (interactors : OrdMap Bytes Ptr) : PublisherManager ρ × List Call :=
  match interactors[request.clientId]? with
  | none => (pm, [])
  | some receiver =>
      let (publisherEntitlements, pm) :=
        pm.entitlements (identify publisher).user request.topic Role.publisher
      let (receiverEntitlements, pm) :=
        pm.entitlements (identify receiver).user request.topic Role.subscriber
      let queries := [Call.user publisher, .user receiver]
      let entitlements := publisherEntitlements ∩ receiverEntitlements
      if publisherEntitlements ≠ ∅ ∧ entitlements = ∅ then
        (pm, queries ++ [.user publisher, .user receiver])
      else
        let authorizedDataPackets := getAuthorizedData request.dataPackets entitlements
        -- Allow the message if the publisher sent no packets.
        if request.dataPackets ≠ [] ∧ authorizedDataPackets = [] then
          (pm, queries ++ [.user publisher, .user receiver])
        else
          (pm.addPublisher publisher request.topic,
            queries ++ [.user publisher, .host publisher,
              .send receiver (.forwardedUnicastData ⟨(identify publisher).user,
                (identify publisher).host, request.clientId, request.topic,
                authorizedDataPackets⟩)])

/-- The state of the loop of `on_send_multicast`. -/
structure MulticastLoop (ρ : Type) [RegexEngine ρ] where
  manager : PublisherManager ρ
  calls : List Call
  hasPublished : Bool

/-- One round of the loop of `on_send_multicast`. -/
def multicastTo (identify : Ptr → Identity) (publisher : Ptr) (request : MulticastData)
    (publisherEntitlements : Finset Int32) (loop : MulticastLoop ρ) (subscriber : Ptr) :
    MulticastLoop ρ :=
  let (subscriberEntitlements, pm) :=
    loop.manager.entitlements (identify subscriber).user request.topic Role.subscriber
  let calls := loop.calls ++ [.user subscriber]
  let entitlements := publisherEntitlements ∩ subscriberEntitlements
  if publisherEntitlements ≠ ∅ ∧ entitlements = ∅ then
    { loop with manager := pm, calls := calls ++ [.user publisher, .user subscriber] }
  else
    let authorizedDataPackets := getAuthorizedData request.dataPackets entitlements
    -- Allow the message if the publisher sent no packets.
    if request.dataPackets ≠ [] ∧ authorizedDataPackets = [] then
      { loop with manager := pm, calls := calls ++ [.user publisher, .user subscriber] }
    else
      { manager := pm
        calls := calls ++ [.user publisher, .host publisher,
          .send subscriber (.forwardedMulticastData ⟨(identify publisher).user,
            (identify publisher).host, request.topic, authorizedDataPackets⟩)]
        hasPublished := true }

def onSendMulticast (identify : Ptr → Identity) (pm : PublisherManager ρ) (publisher : Ptr)
    (request : MulticastData) (sm : SubscriptionManager) : PublisherManager ρ × List Call :=
  let pm := pm.addPublisher publisher request.topic
  let subscribers := (sm.findSubscribers request.topic).toList
  if subscribers.isEmpty then (pm, [])
  else
    let (publisherEntitlements, pm) :=
      pm.entitlements (identify publisher).user request.topic Role.publisher
    let loop := subscribers.foldl (multicastTo identify publisher request publisherEntitlements)
      ⟨pm, [.user publisher], false⟩
    let pm := if loop.hasPublished then loop.manager.addPublisher publisher request.topic
      else loop.manager
    (pm, loop.calls)

/-- The first loop of `on_interactor_closed`: the interactor leaves every topic, and the topics
left without publishers are remembered. -/
def staleTopics (pm : PublisherManager ρ) (interactor : Ptr) : List Bytes :=
  (pm.topicPublishers.toList.filter fun entry => (entry.2.erase interactor).isEmpty).map (·.1)

/-- One round of the last loop of `on_interactor_closed`. -/
def publisherGone (identify : Ptr → Identity) (interactor : Ptr) (sm : SubscriptionManager)
    (topic : Bytes) : List Call :=
  let subscribers := (sm.findSubscribers topic).toList
  if subscribers.isEmpty then []
  else
    [.user interactor, .host interactor] ++
      subscribers.map fun subscriber =>
        .send subscriber (.forwardedMulticastData ⟨(identify interactor).user,
          (identify interactor).host, topic, []⟩)

def onInteractorClosed (identify : Ptr → Identity) (pm : PublisherManager ρ) (interactor : Ptr)
    (sm : SubscriptionManager) : PublisherManager ρ × List Call :=
  match pm.publisherTopics[interactor]? with
  | none => (pm, [])
  | some _ =>
      let stale := pm.staleTopics interactor
      let erased := pm.topicPublishers.map fun _ publishers => publishers.erase interactor
      ({ pm with
          topicPublishers := stale.foldl (fun table topic => table.erase topic) erased
          publisherTopics := pm.publisherTopics.erase interactor },
        stale.flatMap (publisherGone identify interactor sm))

/-- `reload_authorizations`. -/
def reloadAuthorizations (pm : PublisherManager ρ)
    (file : Bytes → Except Exn (List (AuthorizationSpec ρ))) :
    Except Exn (PublisherManager ρ) := do
  let authorizationManager ← pm.authorizationManager.load file
  return { pm with authorizationManager }

theorem reloadAuthorizations_ok {pm pm' : PublisherManager ρ}
    {file : Bytes → Except Exn (List (AuthorizationSpec ρ))}
    (h : pm.reloadAuthorizations file = .ok pm') :
    ∃ am, pm.authorizationManager.load file = .ok am ∧
      pm' = { pm with authorizationManager := am } := by
  unfold reloadAuthorizations at h
  cases hload : pm.authorizationManager.load file with
  | error e =>
      rw [hload] at h
      cases h
  | ok am =>
      rw [hload] at h
      cases h
      exact ⟨am, rfl, rfl⟩

/-! ## What queries leave alone -/

@[simp] theorem entitlements_fst (pm : PublisherManager ρ) (user topic : Bytes) (role : Role) :
    (pm.entitlements user topic role).1 = pm.authorizationManager.inForce user topic role :=
  pm.authorizationManager.entitlements_fst user topic role

/-- Two managers with the same tables and the same authorizations in force: all that differs is
what is cached. -/
structure SameBut (pm pm' : PublisherManager ρ) : Prop where
  inForce : pm'.authorizationManager.inForce = pm.authorizationManager.inForce
  topicPublishers : pm'.topicPublishers = pm.topicPublishers
  publisherTopics : pm'.publisherTopics = pm.publisherTopics

theorem SameBut.refl (pm : PublisherManager ρ) : SameBut pm pm := ⟨rfl, rfl, rfl⟩

theorem SameBut.trans {pm pm' pm'' : PublisherManager ρ} (h : SameBut pm pm')
    (h' : SameBut pm' pm'') : SameBut pm pm'' :=
  ⟨h'.inForce.trans h.inForce, h'.topicPublishers.trans h.topicPublishers,
    h'.publisherTopics.trans h.publisherTopics⟩

theorem sameBut_entitlements (pm : PublisherManager ρ) (user topic : Bytes) (role : Role) :
    SameBut pm (pm.entitlements user topic role).2 := ⟨rfl, rfl, rfl⟩

theorem SameBut.addPublisher {pm pm' : PublisherManager ρ} (h : SameBut pm pm') (publisher : Ptr)
    (topic : Bytes) : SameBut (pm.addPublisher publisher topic)
      (pm'.addPublisher publisher topic) :=
  ⟨h.inForce, congrArg (Index.add · topic publisher) h.topicPublishers,
    congrArg (Index.add · publisher topic) h.publisherTopics⟩

/-! ## Unicast -/

/-- Without entitlements no packet is let through. -/
theorem getAuthorizedData_of_none (dataPackets : List DataPacket) (entitlements : Finset Int32) :
    getAuthorizedData dataPackets (∅ ∩ entitlements) = [] := by
  rw [Finset.empty_inter]
  simp [getAuthorizedData, DataPacket.isAuthorized]

/-- What `onSendUnicast` does: nothing but ask, or register the publisher and forward the packets
both sides are entitled to. -/
theorem onSendUnicast_cases (identify : Ptr → Identity) (pm : PublisherManager ρ)
    (publisher : Ptr) (request : UnicastData) (interactors : OrdMap Bytes Ptr) :
    (onSendUnicast identify pm publisher request interactors = (pm, [])) ∨
    (∃ receiver, interactors[request.clientId]? = some receiver ∧
      SameBut pm (onSendUnicast identify pm publisher request interactors).1 ∧
      (onSendUnicast identify pm publisher request interactors).2 =
        [.user publisher, .user receiver, .user publisher, .user receiver]) ∨
    (∃ receiver packets, interactors[request.clientId]? = some receiver ∧
      (pm.authorizationManager.inForce (identify publisher).user request.topic Role.publisher = ∅ →
        request.dataPackets = []) ∧
      packets.Sublist request.dataPackets ∧
      SameBut (pm.addPublisher publisher request.topic)
        (onSendUnicast identify pm publisher request interactors).1 ∧
      (onSendUnicast identify pm publisher request interactors).2 =
        [.user publisher, .user receiver, .user publisher, .host publisher,
          .send receiver (.forwardedUnicastData ⟨(identify publisher).user,
            (identify publisher).host, request.clientId, request.topic, packets⟩)]) := by
  unfold onSendUnicast
  cases hreceiver : interactors[request.clientId]? with
  | none => exact .inl rfl
  | some receiver =>
      refine .inr ?_
      simp only [entitlements_fst]
      have hasked := (pm.sameBut_entitlements (identify publisher).user request.topic
        Role.publisher).trans (sameBut_entitlements _ (identify receiver).user request.topic
          Role.subscriber)
      split
      · exact .inl ⟨receiver, rfl, hasked, rfl⟩
      · split
        · exact .inl ⟨receiver, rfl, hasked, rfl⟩
        · next hpackets =>
          refine .inr ⟨receiver, _, rfl, fun hnone => ?_, List.filter_sublist,
            hasked.addPublisher _ _, rfl⟩
          by_contra hne
          rw [hnone, getAuthorizedData_of_none] at hpackets
          exact hpackets ⟨hne, rfl⟩

/-! ## Multicast -/

/-- What one round of the multicast loop does to the loop's state. A publisher without
entitlements is let through only when it sends no packets. -/
theorem multicastTo_cases (identify : Ptr → Identity) (publisher : Ptr) (request : MulticastData)
    (publisherEntitlements : Finset Int32) (loop : MulticastLoop ρ) (subscriber : Ptr) :
    SameBut loop.manager
      (multicastTo identify publisher request publisherEntitlements loop subscriber).manager ∧
    ∃ calls, (multicastTo identify publisher request publisherEntitlements loop subscriber).calls =
        loop.calls ++ calls ∧
      (calls = [.user subscriber, .user publisher, .user subscriber] ∨
      (publisherEntitlements = ∅ → request.dataPackets = []) ∧
      ∃ packets, packets.Sublist request.dataPackets ∧
        calls = [.user subscriber, .user publisher, .host publisher,
          .send subscriber (.forwardedMulticastData ⟨(identify publisher).user,
            (identify publisher).host, request.topic, packets⟩)]) := by
  have hasked := sameBut_entitlements loop.manager (identify subscriber).user request.topic
    Role.subscriber
  unfold multicastTo
  simp only [entitlements_fst]
  split
  · exact ⟨hasked, _, List.append_assoc _ _ _, .inl rfl⟩
  · split
    · exact ⟨hasked, _, List.append_assoc _ _ _, .inl rfl⟩
    · next hpackets =>
      refine ⟨hasked, _, List.append_assoc _ _ _, .inr ⟨fun hnone => ?_, _, List.filter_sublist,
        rfl⟩⟩
      by_contra hne
      rw [hnone, getAuthorizedData_of_none] at hpackets
      exact hpackets ⟨hne, rfl⟩

/-- A call of a multicast of `publisher` to `subscribers`. -/
def MulticastCall (identify : Ptr → Identity) (publisher : Ptr) (request : MulticastData)
    (publisherEntitlements : Finset Int32) (subscribers : List Ptr) (c : Call) : Prop :=
  c = .user publisher ∨ c = .host publisher ∨ (∃ s ∈ subscribers, c = .user s) ∨
    (publisherEntitlements = ∅ → request.dataPackets = []) ∧
      ∃ s ∈ subscribers, ∃ packets, packets.Sublist request.dataPackets ∧
        c = .send s (.forwardedMulticastData
          ⟨(identify publisher).user, (identify publisher).host, request.topic, packets⟩)

theorem foldl_multicastTo (identify : Ptr → Identity) (publisher : Ptr) (request : MulticastData)
    (publisherEntitlements : Finset Int32) (subscribers all : List Ptr)
    (hall : ∀ s ∈ subscribers, s ∈ all) (loop : MulticastLoop ρ)
    (hcalls : ∀ c ∈ loop.calls,
      MulticastCall identify publisher request publisherEntitlements all c) :
    SameBut loop.manager (subscribers.foldl
      (multicastTo identify publisher request publisherEntitlements) loop).manager ∧
    ∀ c ∈ (subscribers.foldl
        (multicastTo identify publisher request publisherEntitlements) loop).calls,
      MulticastCall identify publisher request publisherEntitlements all c := by
  induction subscribers generalizing loop with
  | nil => exact ⟨.refl _, hcalls⟩
  | cons s subscribers ih =>
      obtain ⟨hsame, calls, heq, hcase⟩ :=
        multicastTo_cases identify publisher request publisherEntitlements loop s
      have hs : s ∈ all := hall s (by simp)
      have hround : ∀ c ∈ (multicastTo identify publisher request publisherEntitlements loop
          s).calls, MulticastCall identify publisher request publisherEntitlements all c := by
        intro c hc
        rw [heq, List.mem_append] at hc
        rcases hc with hc | hc
        · exact hcalls c hc
        · rcases hcase with rfl | ⟨hnone, packets, hpackets, rfl⟩
          · simp only [List.mem_cons, List.not_mem_nil, or_false] at hc
            rcases hc with rfl | rfl | rfl
            · exact .inr (.inr (.inl ⟨s, hs, rfl⟩))
            · exact .inl rfl
            · exact .inr (.inr (.inl ⟨s, hs, rfl⟩))
          · simp only [List.mem_cons, List.not_mem_nil, or_false] at hc
            rcases hc with rfl | rfl | rfl | rfl
            · exact .inr (.inr (.inl ⟨s, hs, rfl⟩))
            · exact .inl rfl
            · exact .inr (.inl rfl)
            · exact .inr (.inr (.inr ⟨hnone, s, hs, packets, hpackets, rfl⟩))
      obtain ⟨hrest, hmore⟩ := ih (fun s' hs' => hall s' (by simp [hs'])) _ hround
      exact ⟨hsame.trans hrest, hmore⟩

/-- The publisher has been entered, once or more often, and nothing else has changed. -/
structure Published (pm pm' : PublisherManager ρ) (publisher : Ptr) (topic : Bytes) : Prop where
  inForce : pm'.authorizationManager.inForce = pm.authorizationManager.inForce
  topicPublishers : ∀ t p, Index.Has pm'.topicPublishers t p ↔
    (topic = t ∧ publisher = p) ∨ Index.Has pm.topicPublishers t p
  publisherTopics : ∀ p t, Index.Has pm'.publisherTopics p t ↔
    (publisher = p ∧ topic = t) ∨ Index.Has pm.publisherTopics p t
  keys : ∀ p, p ∈ pm'.publisherTopics ↔ publisher = p ∨ p ∈ pm.publisherTopics
  noEmptyEntry : Index.NoEmptyEntry pm.topicPublishers → Index.NoEmptyEntry pm'.topicPublishers

theorem published_addPublisher (pm : PublisherManager ρ) (publisher : Ptr) (topic : Bytes) :
    Published pm (pm.addPublisher publisher topic) publisher topic where
  inForce := rfl
  topicPublishers _ _ := Index.has_add _ _ _ _ _
  publisherTopics _ _ := Index.has_add _ _ _ _ _
  keys _ := Index.mem_add
  noEmptyEntry h := h.add topic publisher

theorem Published.sameBut {pm pm' pm'' : PublisherManager ρ} {publisher : Ptr} {topic : Bytes}
    (h : Published pm pm' publisher topic) (h' : SameBut pm' pm'') :
    Published pm pm'' publisher topic where
  inForce := h'.inForce.trans h.inForce
  topicPublishers t p := by rw [h'.topicPublishers]; exact h.topicPublishers t p
  publisherTopics p t := by rw [h'.publisherTopics]; exact h.publisherTopics p t
  keys p := by rw [h'.publisherTopics]; exact h.keys p
  noEmptyEntry hne := by rw [h'.topicPublishers]; exact h.noEmptyEntry hne

/-- A publisher that has been entered is not entered again. -/
theorem SameBut.addPublisher_again {pm pm' : PublisherManager ρ} {publisher : Ptr} {topic : Bytes}
    (h : SameBut (pm.addPublisher publisher topic) pm') : pm'.addPublisher publisher topic = pm' := by
  obtain ⟨am, topicPublishers, publisherTopics⟩ := pm'
  obtain rfl : topicPublishers = _ := h.topicPublishers
  obtain rfl : publisherTopics = _ := h.publisherTopics
  simp [PublisherManager.addPublisher]

/-- A multicast enters its publisher, before it knows whether anybody subscribes; entering it again
at the end changes nothing. -/
theorem sameBut_onSendMulticast (identify : Ptr → Identity) (pm : PublisherManager ρ)
    (publisher : Ptr) (request : MulticastData) (sm : SubscriptionManager) :
    SameBut (pm.addPublisher publisher request.topic)
      (onSendMulticast identify pm publisher request sm).1 := by
  unfold onSendMulticast
  simp only
  split
  · exact .refl _
  · have hasked := sameBut_entitlements (pm.addPublisher publisher request.topic)
      (identify publisher).user request.topic Role.publisher
    have hloop := hasked.trans (foldl_multicastTo identify publisher request
      ((pm.addPublisher publisher request.topic).authorizationManager.inForce
        (identify publisher).user request.topic Role.publisher)
      (sm.findSubscribers request.topic).toList _ (fun _ h => h) ⟨_, [.user publisher], false⟩
      (fun c hc => .inl (List.mem_singleton.mp hc))).1
    rw [entitlements_fst]
    split
    · show SameBut _ (PublisherManager.addPublisher _ _ _)
      rwa [hloop.addPublisher_again]
    · exact hloop

/-- **A multicast registers its publisher whatever comes of it**, and forwards to subscribers of
the topic only, in the publisher's name; without entitlements it forwards at most an empty
message. -/
theorem onSendMulticast_spec (identify : Ptr → Identity) (pm : PublisherManager ρ)
    (publisher : Ptr) (request : MulticastData) (sm : SubscriptionManager) :
    Published pm (onSendMulticast identify pm publisher request sm).1 publisher request.topic ∧
    ∀ c ∈ (onSendMulticast identify pm publisher request sm).2,
      MulticastCall identify publisher request
        (pm.authorizationManager.inForce (identify publisher).user request.topic Role.publisher)
        (sm.findSubscribers request.topic).toList c := by
  refine ⟨(published_addPublisher pm publisher request.topic).sameBut
    (sameBut_onSendMulticast identify pm publisher request sm), ?_⟩
  unfold onSendMulticast
  simp only
  split
  · simp
  · rw [entitlements_fst]
    exact (foldl_multicastTo identify publisher request _ (sm.findSubscribers request.topic).toList
      _ (fun _ h => h) ⟨_, [.user publisher], false⟩
      (fun c hc => .inl (List.mem_singleton.mp hc))).2

/-! ## A disconnect -/

theorem mem_staleTopics {pm : PublisherManager ρ} {interactor : Ptr} {topic : Bytes} :
    topic ∈ pm.staleTopics interactor ↔ ∃ publishers, pm.topicPublishers[topic]? = some publishers ∧
      ∀ p ∈ publishers, interactor = p := by
  have hempty : ∀ publishers : OrdSet Ptr,
      (publishers.erase interactor).isEmpty ↔ ∀ p ∈ publishers, interactor = p := by
    intro publishers
    rw [Std.ExtTreeSet.isEmpty_iff, Std.ExtTreeSet.eq_empty_iff_forall_not_mem]
    simp only [Std.ExtTreeSet.mem_erase, Std.compare_eq_iff_eq, ne_eq, not_and]
    exact forall_congr' fun p => ⟨fun h hp => by_contra fun hne => h hne hp,
      fun h hne hp => hne (h hp)⟩
  simp only [staleTopics, List.mem_map, List.mem_filter, Prod.exists,
    Std.ExtTreeMap.mem_toList_iff_getElem?_eq_some, hempty]
  exact ⟨fun ⟨_, publishers, h, heq⟩ => ⟨publishers, heq ▸ h.1, h.2⟩,
    fun ⟨publishers, h⟩ => ⟨topic, publishers, h, rfl⟩⟩

section Closed

variable {identify : Ptr → Identity} {pm : PublisherManager ρ} {interactor : Ptr}
  {sm : SubscriptionManager} {topics : OrdSet Bytes}

/-- The rows after a disconnect of an interactor that has published. -/
theorem get_closed (hentry : pm.publisherTopics[interactor]? = some topics) (topic : Bytes) :
    (onInteractorClosed identify pm interactor sm).1.topicPublishers[topic]? =
      if topic ∈ pm.staleTopics interactor then none
      else (pm.topicPublishers[topic]?).map fun publishers => publishers.erase interactor := by
  unfold onInteractorClosed
  rw [hentry]
  simp only
  rw [OrdMap.get_foldl_erase, Std.ExtTreeMap.getElem?_map]
  by_cases hstale : topic ∈ pm.staleTopics interactor <;>
    simp only [hstale, if_true, if_false]

/-- **The interactor leaves every topic**, and nobody else does. -/
theorem has_closed (hentry : pm.publisherTopics[interactor]? = some topics) {t : Bytes} {p : Ptr} :
    Index.Has (onInteractorClosed identify pm interactor sm).1.topicPublishers t p ↔
      interactor ≠ p ∧ Index.Has pm.topicPublishers t p := by
  simp only [Index.Has, get_closed hentry]
  constructor
  · rintro ⟨publishers', hget, hp⟩
    split at hget
    · cases hget
    · obtain ⟨publishers, hrow, rfl⟩ := Option.map_eq_some_iff.mp hget
      simp only [Std.ExtTreeSet.mem_erase, Std.compare_eq_iff_eq, ne_eq] at hp
      exact ⟨hp.1, publishers, hrow, hp.2⟩
  · rintro ⟨hne, publishers, hrow, hp⟩
    have hstale : t ∉ pm.staleTopics interactor := by
      intro hstale
      obtain ⟨publishers', hrow', honly⟩ := mem_staleTopics.mp hstale
      rw [hrow] at hrow'
      cases hrow'
      exact hne (honly p hp)
    rw [if_neg hstale, hrow]
    refine ⟨publishers.erase interactor, rfl, ?_⟩
    simp only [Std.ExtTreeSet.mem_erase, Std.compare_eq_iff_eq, ne_eq]
    exact ⟨hne, hp⟩

/-- The topics left without publishers are gone. -/
theorem noEmptyEntry_closed (hentry : pm.publisherTopics[interactor]? = some topics) :
    Index.NoEmptyEntry (onInteractorClosed identify pm interactor sm).1.topicPublishers := by
  intro t publishers' hget
  rw [get_closed hentry] at hget
  split at hget
  · cases hget
  · next hstale =>
    obtain ⟨publishers, hrow, rfl⟩ := Option.map_eq_some_iff.mp hget
    by_contra hno
    refine hstale (mem_staleTopics.mpr ⟨publishers, hrow, fun p hp => ?_⟩)
    by_contra hne
    refine hno ⟨p, ?_⟩
    simp only [Std.ExtTreeSet.mem_erase, Std.compare_eq_iff_eq, ne_eq]
    exact ⟨hne, hp⟩

/-- The calls of a disconnect are those of one round a topic left without publishers. -/
theorem calls_closed (hentry : pm.publisherTopics[interactor]? = some topics) :
    (onInteractorClosed identify pm interactor sm).2 =
      (pm.staleTopics interactor).flatMap (publisherGone identify interactor sm) := by
  unfold onInteractorClosed
  rw [hentry]

/-- What a round may call. -/
theorem cases_of_mem_publisherGone {topic : Bytes} {c : Call}
    (hc : c ∈ publisherGone identify interactor sm topic) :
    c = .user interactor ∨ c = .host interactor ∨
      ∃ s ∈ sm.findSubscribers topic, c = .send s (.forwardedMulticastData
        ⟨(identify interactor).user, (identify interactor).host, topic, []⟩) := by
  unfold publisherGone at hc
  simp only at hc
  split at hc
  · cases hc
  · rcases List.mem_append.mp hc with hc | hc
    · simp only [List.mem_cons, List.not_mem_nil, or_false] at hc
      rcases hc with rfl | rfl
      · exact .inl rfl
      · exact .inr (.inl rfl)
    · obtain ⟨s, hs, rfl⟩ := List.mem_map.mp hc
      exact .inr (.inr ⟨s, Std.ExtTreeSet.mem_toList.mp hs, rfl⟩)

end Closed

/-- What a disconnect leaves of the tables when the interactor has published. -/
theorem onInteractorClosed_cases (identify : Ptr → Identity) (pm : PublisherManager ρ)
    (interactor : Ptr) (sm : SubscriptionManager) :
    (pm.publisherTopics[interactor]? = none ∧
      onInteractorClosed identify pm interactor sm = (pm, [])) ∨
    ((onInteractorClosed identify pm interactor sm).1.authorizationManager =
        pm.authorizationManager ∧
      (onInteractorClosed identify pm interactor sm).1.publisherTopics =
        pm.publisherTopics.erase interactor ∧
      (∀ t p, Index.Has (onInteractorClosed identify pm interactor sm).1.topicPublishers t p ↔
        interactor ≠ p ∧ Index.Has pm.topicPublishers t p) ∧
      Index.NoEmptyEntry (onInteractorClosed identify pm interactor sm).1.topicPublishers ∧
      ∀ c ∈ (onInteractorClosed identify pm interactor sm).2,
        ∃ topic ∈ pm.staleTopics interactor,
          c = .user interactor ∨ c = .host interactor ∨
            ∃ s ∈ sm.findSubscribers topic, c = .send s (.forwardedMulticastData
              ⟨(identify interactor).user, (identify interactor).host, topic, []⟩)) := by
  cases hentry : pm.publisherTopics[interactor]? with
  | none =>
      refine .inl ⟨rfl, ?_⟩
      unfold onInteractorClosed
      rw [hentry]
  | some topics =>
      refine .inr ⟨?_, ?_, fun t p => has_closed hentry, noEmptyEntry_closed hentry, fun c hc => ?_⟩
      · unfold onInteractorClosed
        rw [hentry]
      · unfold onInteractorClosed
        rw [hentry]
      · rw [calls_closed hentry] at hc
        obtain ⟨topic, hstale, hround⟩ := List.mem_flatMap.mp hc
        exact ⟨topic, hstale, cases_of_mem_publisherGone hround⟩

end PublisherManager

end SquawkBus.Server
