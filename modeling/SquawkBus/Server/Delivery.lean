import SquawkBus.Server.Noninterference

/-!
# Who is sent what

What a publish sends to one client, as a function of the entitlements in force. A multicast sends a
subscriber the packets that may pass, in one message, and a unicast sends what a multicast to that
client alone would. Granting more delivers more with one exception: the tests let a publisher without
any entitlement pass when it sends no packets, and stop it once it has been granted something that
the receiver has not.
-/

namespace SquawkBus.Server

open SquawkBus.Messages

variable {ρ : Type} [RegexEngine ρ]

namespace PublisherManager

/-! ## The messages of one publish -/

/-- What a publish on the topic forwards to the subscriber under the authorizations in force. -/
def forwardedInForce (identify : Ptr → Identity) (pm : PublisherManager ρ)
    (publisher subscriber : Ptr) (request : MulticastData) : List Message :=
  forwarded identify publisher request
    (pm.authorizationManager.inForce (identify publisher).user request.topic Role.publisher)
    (pm.authorizationManager.inForce (identify subscriber).user request.topic Role.subscriber)

/-- The loop of a multicast sends to each subscriber once. -/
theorem foldl_multicastTo_sent (identify : Ptr → Identity) (pm : PublisherManager ρ)
    (publisher i : Ptr) (request : MulticastData) {subscribers : List Ptr}
    (hnodup : subscribers.Nodup) {loop : MulticastLoop ρ} (hsame : SameBut pm loop.manager) :
    (subscribers.foldl (multicastTo identify publisher request
        (pm.authorizationManager.inForce (identify publisher).user request.topic Role.publisher))
      loop).calls.filterMap (Call.sentTo i) =
      loop.calls.filterMap (Call.sentTo i) ++
        if i ∈ subscribers then forwardedInForce identify pm publisher i request else [] := by
  induction subscribers generalizing loop with
  | nil => simp
  | cons s subscribers ih =>
      obtain ⟨hs, hrest⟩ := List.nodup_cons.mp hnodup
      obtain ⟨hmanager, hsent⟩ := multicastTo_sent identify publisher request
        (pm.authorizationManager.inForce (identify publisher).user request.topic Role.publisher)
        loop s i
      have hround : SameBut pm (multicastTo identify publisher request
          (pm.authorizationManager.inForce (identify publisher).user request.topic Role.publisher)
          loop s).manager := by
        rw [hmanager]
        exact hsame.trans (sameBut_entitlements _ _ _ _)
      rw [List.foldl_cons, ih hrest hround, hsent, hsame.inForce, List.append_assoc]
      congr 1
      by_cases hi : s = i
      · subst hi
        simp [hs, forwardedInForce]
      · simp [hi, Ne.symm hi]

/-- **What a multicast sends to `i`**: one forwarding when `i` subscribes, and nothing otherwise. -/
theorem onSendMulticast_sent (identify : Ptr → Identity) (pm : PublisherManager ρ)
    (publisher i : Ptr) (request : MulticastData) (sm : SubscriptionManager) :
    (onSendMulticast identify pm publisher request sm).2.filterMap (Call.sentTo i) =
      if i ∈ sm.findSubscribers request.topic then
        forwardedInForce identify pm publisher i request
      else [] := by
  unfold onSendMulticast
  simp only [entitlements_fst, ← Std.ExtTreeSet.mem_toList]
  split
  · next hnone =>
    rw [List.isEmpty_iff.mp hnone]
    rfl
  · have hsame := (sameBut_entitlements (pm.addPublisher publisher request.topic)
      (identify publisher).user request.topic Role.publisher)
    exact foldl_multicastTo_sent identify (pm.addPublisher publisher request.topic) publisher i
      request (OrdSet.nodup_toList _) hsame

/-- The unicast to a client that carries what a multicast would. -/
def asUnicast (clientId : Bytes) : Message → Message
  | .forwardedMulticastData data =>
      .forwardedUnicastData ⟨data.user, data.host, clientId, data.topic, data.dataPackets⟩
  | message => message

/-- **What a unicast sends to its receiver** is what a multicast would. -/
theorem onSendUnicast_sent (identify : Ptr → Identity) (pm : PublisherManager ρ)
    (publisher receiver : Ptr) (request : UnicastData) {interactors : OrdMap Bytes Ptr}
    (hreceiver : interactors[request.clientId]? = some receiver) :
    (onSendUnicast identify pm publisher request interactors).2.filterMap (Call.sentTo receiver) =
      (forwardedInForce identify pm publisher receiver ⟨request.topic, request.dataPackets⟩).map
        (asUnicast request.clientId) := by
  unfold onSendUnicast forwardedInForce forwarded
  rw [hreceiver]
  simp only [entitlements_fst]
  have hsecond : (pm.entitlements (identify publisher).user request.topic
      Role.publisher).2.authorizationManager.inForce = pm.authorizationManager.inForce :=
    (sameBut_entitlements pm _ _ _).inForce
  rw [hsecond]
  split
  · simp [Call.sentTo]
  · split
    · simp [Call.sentTo]
    · simp [Call.sentTo, List.filterMap_cons, asUnicast]

/-- Something is forwarded unless the publisher has entitlements and shares none with the subscriber,
or packets were sent and none may pass. -/
theorem forwarded_eq (identify : Ptr → Identity) (publisher : Ptr) (request : MulticastData)
    (publisherEntitlements subscriberEntitlements : Finset Int32) :
    forwarded identify publisher request publisherEntitlements subscriberEntitlements =
      if (request.dataPackets = [] ∧ (publisherEntitlements = ∅ ∨
            (publisherEntitlements ∩ subscriberEntitlements).Nonempty)) ∨
          getAuthorizedData request.dataPackets
            (publisherEntitlements ∩ subscriberEntitlements) ≠ [] then
        [.forwardedMulticastData ⟨(identify publisher).user, (identify publisher).host,
          request.topic, getAuthorizedData request.dataPackets
            (publisherEntitlements ∩ subscriberEntitlements)⟩]
      else [] := by
  have hnone : request.dataPackets = [] → getAuthorizedData request.dataPackets
      (publisherEntitlements ∩ subscriberEntitlements) = [] := by
    intro h
    rw [h]
    rfl
  have hempty : publisherEntitlements ∩ subscriberEntitlements = ∅ →
      getAuthorizedData request.dataPackets
        (publisherEntitlements ∩ subscriberEntitlements) = [] := by
    intro h
    rw [h]
    simp [getAuthorizedData, DataPacket.isAuthorized]
  unfold forwarded
  simp only [Finset.nonempty_iff_ne_empty]
  split
  · next hblocked =>
    rw [if_neg]
    rintro (⟨-, h | h⟩ | h)
    · exact hblocked.1 h
    · exact h hblocked.2
    · exact h (hempty hblocked.2)
  · next hpass =>
    split
    · next hfiltered =>
      rw [if_neg]
      rintro (⟨h, -⟩ | h)
      · exact hfiltered.1 h
      · exact h hfiltered.2
    · next hsent =>
      rw [if_pos]
      by_cases hpackets : request.dataPackets = []
      · exact .inl ⟨hpackets, Classical.or_iff_not_imp_left.mpr fun h hinter => hpass ⟨h, hinter⟩⟩
      · exact .inr fun h => hsent ⟨hpackets, h⟩

end PublisherManager

/-! ## A multicast delivers what may pass -/

namespace Hub

/-- **A multicast with packets delivers exactly the entitled ones**: to a subscriber of the topic to
which some of the packets may pass, all of these in one message; to anybody else nothing. -/
theorem sent_of_multicast (identify : Ptr → Identity) (hub : Hub ρ) (publisher s : Ptr)
    (request : MulticastData) (hpackets : request.dataPackets ≠ []) :
    let entitled := hub.publisherManager.visible identify publisher s request
    (hub.step identify (.message publisher (.multicastData request))).events.filterMap
        (Call.sentTo s) =
      if s ∈ hub.subscriptionManager.findSubscribers request.topic ∧ entitled ≠ [] then
        [.forwardedMulticastData ⟨(identify publisher).user, (identify publisher).host,
          request.topic, entitled⟩]
      else [] := by
  intro entitled
  have hevents : (hub.step identify (.message publisher (.multicastData request))).events =
      .id publisher :: (hub.publisherManager.onSendMulticast identify publisher request
        hub.subscriptionManager).2 := rfl
  have hasked : Call.sentTo s (.id publisher) = none := rfl
  rw [hevents, List.filterMap_cons, hasked, PublisherManager.onSendMulticast_sent]
  unfold PublisherManager.forwardedInForce
  rw [PublisherManager.forwarded_eq, PublisherManager.getAuthorizedData_eq_visible]
  by_cases hs : s ∈ hub.subscriptionManager.findSubscribers request.topic
  · simp only [hs, hpackets, if_true, false_and, false_or, true_and]
    rfl
  · simp only [hs, if_false, false_and]

/-- Client 2 gets the two packets of entitlement 0, and not the one of entitlement 7. -/
theorem sent_of_multicast_two :
    let seen : Bytes → DataPacket := fun data => ⟨0, ascii "text", data⟩
    let hub : Hub PlainRegex := (new (.new none [])).after numbered
      [.reload fun _ => .ok [], .message 2 (.subscriptionRequest ⟨ascii "A", true⟩)]
    (hub.step numbered (.message 1 (.multicastData
        ⟨ascii "A", [seen [1], ⟨7, ascii "text", [2]⟩, seen [1]]⟩))).events.filterMap
        (Call.sentTo 2) =
      [.forwardedMulticastData ⟨[1], ascii "host", ascii "A", [seen [1], seen [1]]⟩] :=
  (sent_of_multicast numbered _ 1 2 _ (by decide)).trans (by decide +kernel)

end Hub

namespace PublisherManager

/-! ## A unicast delivers what a multicast does -/

/-- **Unicast and multicast enforce the same authorizations**: a unicast to a client is let through
exactly when a multicast with the same packets is that has this client as its only subscriber, and
the two messages carry the same. -/
theorem unicast_iff_multicast (identify : Ptr → Identity) (pm : PublisherManager ρ)
    (publisher receiver : Ptr) (clientId topic : Bytes) (packets : List DataPacket)
    (interactors : OrdMap Bytes Ptr) (sm : SubscriptionManager)
    (hreceiver : interactors[clientId]? = some receiver)
    (honly : ∀ s, s ∈ sm.findSubscribers topic ↔ s = receiver) :
    let unicast := (onSendUnicast identify pm publisher ⟨clientId, topic, packets⟩
      interactors).2.filterMap (Call.sentTo receiver)
    let multicast := (onSendMulticast identify pm publisher ⟨topic, packets⟩ sm).2.filterMap
      (Call.sentTo receiver)
    (unicast ≠ [] ↔ multicast ≠ []) ∧
      ∀ u ∈ unicast, ∀ m ∈ multicast, ∃ user host packets',
        u = .forwardedUnicastData ⟨user, host, clientId, topic, packets'⟩ ∧
          m = .forwardedMulticastData ⟨user, host, topic, packets'⟩ := by
  intro unicast multicast
  have hmulticast : multicast =
      forwardedInForce identify pm publisher receiver ⟨topic, packets⟩ := by
    show (onSendMulticast identify pm publisher ⟨topic, packets⟩ sm).2.filterMap _ = _
    rw [onSendMulticast_sent, if_pos ((honly receiver).mpr rfl)]
  have hunicast : unicast = multicast.map (asUnicast clientId) := by
    rw [hmulticast]
    exact onSendUnicast_sent identify pm publisher receiver ⟨clientId, topic, packets⟩ hreceiver
  refine ⟨by rw [hunicast, ne_eq, List.map_eq_nil_iff], ?_⟩
  -- At most one message is forwarded.
  have hone : multicast = [] ∨ ∃ user host packets',
      multicast = [.forwardedMulticastData ⟨user, host, topic, packets'⟩] := by
    rw [hmulticast, forwardedInForce, forwarded_eq]
    split
    · exact .inr ⟨_, _, _, rfl⟩
    · exact .inl rfl
  intro u hu m hm
  rcases hone with hnone | ⟨user, host, packets', hsome⟩
  · rw [hnone] at hm
    cases hm
  · rw [hunicast, hsome] at hu
    rw [hsome] at hm
    exact ⟨user, host, packets', List.mem_singleton.mp hu, List.mem_singleton.mp hm⟩

/-- Client 2 is the only subscriber of the topic. -/
theorem unicast_iff_multicast_greeting :
    let pm : PublisherManager PlainRegex := .new ⟨none, [], .ofSpecs
      [⟨ascii ".*", ascii ".*", .anything, .anything, {0}, Role.all, by decide, by decide⟩]⟩
    let interactors : OrdMap Bytes Ptr := Std.ExtTreeMap.insert ∅ [2] 2
    let sm := (SubscriptionManager.empty.addSubscription 2 (ascii "A")).1
    let packets : List DataPacket := [⟨0, ascii "text", [72, 105]⟩]
    let unicast := (onSendUnicast numbered pm 1 ⟨[2], ascii "A", packets⟩ interactors).2.filterMap
      (Call.sentTo 2)
    let multicast := (onSendMulticast numbered pm 1 ⟨ascii "A", packets⟩ sm).2.filterMap
      (Call.sentTo 2)
    (unicast ≠ [] ↔ multicast ≠ []) ∧
      ∀ u ∈ unicast, ∀ m ∈ multicast, ∃ user host packets',
        u = .forwardedUnicastData ⟨user, host, [2], ascii "A", packets'⟩ ∧
          m = .forwardedMulticastData ⟨user, host, ascii "A", packets'⟩ := by
  refine unicast_iff_multicast numbered _ 1 2 [2] (ascii "A") _ _ _ (by decide +kernel) ?_
  intro s
  rw [SubscriptionManager.mem_findSubscribers, SubscriptionManager.cell_addSubscription]
  by_cases hs : s = 2
  · simp [hs, SubscriptionManager.empty]
  · simp [hs, Ne.symm hs, SubscriptionManager.empty]

/-! ## Granting more -/

/-- The packets a message carries. -/
def packetsOf : Message → List DataPacket
  | .forwardedMulticastData data => data.dataPackets
  | .forwardedUnicastData data => data.dataPackets
  | _ => []

/-- **Nothing is lost**: for every message sent under the smaller grants, one is sent under the
larger ones, and the packets of the first are among those of the second, in the same order. -/
def DeliversMore (sent sent' : List Message) : Prop :=
  ∀ m ∈ sent, ∃ m' ∈ sent', (packetsOf m).Sublist (packetsOf m')

/-- The grants do not take away the pass of a publisher without entitlements that sends no packets:
it goes on without any, or shares one with the receiver. -/
def KeepsPass (packets : List DataPacket) (publisher publisher' subscriber' : Finset Int32) : Prop :=
  packets = [] → publisher = ∅ → publisher' = ∅ ∨ (publisher' ∩ subscriber').Nonempty

theorem deliversMore_map_asUnicast (clientId : Bytes) (sent sent' : List Message) :
    DeliversMore (sent.map (asUnicast clientId)) (sent'.map (asUnicast clientId)) ↔
      DeliversMore sent sent' := by
  have hpackets : ∀ m, packetsOf (asUnicast clientId m) = packetsOf m := by
    intro m
    cases m <;> rfl
  simp [DeliversMore, hpackets]

/-- When what is forwarded under more entitlements is no less. -/
theorem deliversMore_forwarded_iff (identify : Ptr → Identity) (publisher : Ptr)
    (request : MulticastData) {P P' S S' : Finset Int32} (hP : P ⊆ P') (hS : S ⊆ S') :
    DeliversMore (forwarded identify publisher request P S)
      (forwarded identify publisher request P' S') ↔ KeepsPass request.dataPackets P P' S' := by
  have hinter : P ∩ S ⊆ P' ∩ S' := Finset.inter_subset_inter hP hS
  have hpackets : (getAuthorizedData request.dataPackets (P ∩ S)).Sublist
      (getAuthorizedData request.dataPackets (P' ∩ S')) := by
    refine List.monotone_filter_right _ fun packet h => ?_
    simp only [DataPacket.isAuthorized, decide_eq_true_eq] at h ⊢
    exact hinter h
  rw [forwarded_eq, forwarded_eq]
  constructor
  · intro h hnone hP
    have hsent : (request.dataPackets = [] ∧ (P = ∅ ∨ (P ∩ S).Nonempty)) ∨
        getAuthorizedData request.dataPackets (P ∩ S) ≠ [] := .inl ⟨hnone, .inl hP⟩
    rw [if_pos hsent] at h
    obtain ⟨m', hm', -⟩ := h _ (List.mem_singleton.mpr rfl)
    split at hm'
    · next hpass =>
      rcases hpass with ⟨-, hpass⟩ | hpass
      · exact hpass
      · rw [hnone] at hpass
        exact absurd rfl hpass
    · cases hm'
  · intro hkeeps m hm
    split at hm
    · next hsent =>
      obtain rfl := List.mem_singleton.mp hm
      have hsent' : (request.dataPackets = [] ∧ (P' = ∅ ∨ (P' ∩ S').Nonempty)) ∨
          getAuthorizedData request.dataPackets (P' ∩ S') ≠ [] := by
        rcases hsent with ⟨hnone, hnobody | hshared⟩ | hsent
        · exact .inl ⟨hnone, hkeeps hnone hnobody⟩
        · exact .inl ⟨hnone, .inr (hshared.mono hinter)⟩
        · exact .inr fun hnil => hsent (List.sublist_nil.mp (hnil ▸ hpackets))
      rw [if_pos hsent']
      exact ⟨_, List.mem_singleton.mpr rfl, hpackets⟩
    · cases hm

/-- **When granting more delivers no less**, by multicast and by unicast: exactly when the grants do
not take away the pass of a publisher without entitlements that sends no packets. -/
theorem deliversMore_iff (identify : Ptr → Identity) (pm pm' : PublisherManager ρ)
    (publisher subscriber : Ptr) (clientId topic : Bytes) (packets : List DataPacket)
    (interactors : OrdMap Bytes Ptr) (sm : SubscriptionManager) {P P' S S' : Finset Int32}
    (hP : pm.authorizationManager.inForce (identify publisher).user topic Role.publisher = P)
    (hP' : pm'.authorizationManager.inForce (identify publisher).user topic Role.publisher = P')
    (hS : pm.authorizationManager.inForce (identify subscriber).user topic Role.subscriber = S)
    (hS' : pm'.authorizationManager.inForce (identify subscriber).user topic Role.subscriber = S')
    (hpublisher : P ⊆ P') (hsubscriber : S ⊆ S')
    (hsubscribed : subscriber ∈ sm.findSubscribers topic)
    (hreceiver : interactors[clientId]? = some subscriber) :
    let multicast := fun pm : PublisherManager ρ =>
      (onSendMulticast identify pm publisher ⟨topic, packets⟩ sm).2.filterMap
        (Call.sentTo subscriber)
    let unicast := fun pm : PublisherManager ρ =>
      (onSendUnicast identify pm publisher ⟨clientId, topic, packets⟩ interactors).2.filterMap
        (Call.sentTo subscriber)
    (DeliversMore (multicast pm) (multicast pm') ↔ KeepsPass packets P P' S') ∧
      (DeliversMore (unicast pm) (unicast pm') ↔ KeepsPass packets P P' S') := by
  intro multicast unicast
  have hforwarded : forwardedInForce identify pm publisher subscriber ⟨topic, packets⟩ =
      forwarded identify publisher ⟨topic, packets⟩ P S := by
    rw [← hP, ← hS]
    rfl
  have hforwarded' : forwardedInForce identify pm' publisher subscriber ⟨topic, packets⟩ =
      forwarded identify publisher ⟨topic, packets⟩ P' S' := by
    rw [← hP', ← hS']
    rfl
  have hiff := deliversMore_forwarded_iff identify publisher ⟨topic, packets⟩ hpublisher hsubscriber
  constructor
  · simp only [multicast]
    rw [onSendMulticast_sent, onSendMulticast_sent, if_pos hsubscribed, if_pos hsubscribed,
      hforwarded, hforwarded']
    exact hiff
  · simp only [unicast]
    rw [onSendUnicast_sent _ _ _ _ _ hreceiver, onSendUnicast_sent _ _ _ _ _ hreceiver,
      deliversMore_map_asUnicast, hforwarded, hforwarded']
    exact hiff

/-! ### Two grants -/

/-- Everybody has these entitlements in the role, on every topic. -/
def granting (entitlements : Finset Int32) (role : Role) : AuthorizationSpec PlainRegex :=
  ⟨ascii ".*", ascii ".*", .anything, .anything, entitlements, role, rfl, rfl⟩

/-- The publisher manager that goes by these specifications. -/
def goingBy (specs : List (AuthorizationSpec PlainRegex)) : PublisherManager PlainRegex :=
  .new ⟨none, [], .ofSpecs specs⟩

/-- Publishers and subscribers with entitlement 0 are granted entitlement 1 as well. -/
theorem deliversMore_of_shared_grants :
    let pm := goingBy [granting {0} Role.all]
    let pm' := goingBy [granting {0, 1} Role.all]
    let sm := (SubscriptionManager.empty.addSubscription 2 (ascii "A")).1
    let interactors : OrdMap Bytes Ptr := Std.ExtTreeMap.insert ∅ [2] 2
    let multicast := fun pm : PublisherManager PlainRegex =>
      (onSendMulticast numbered pm 1 ⟨ascii "A", []⟩ sm).2.filterMap (Call.sentTo 2)
    let unicast := fun pm : PublisherManager PlainRegex =>
      (onSendUnicast numbered pm 1 ⟨[2], ascii "A", []⟩ interactors).2.filterMap (Call.sentTo 2)
    (DeliversMore (multicast pm) (multicast pm') ↔ KeepsPass [] {0} {0, 1} {0, 1}) ∧
      (DeliversMore (unicast pm) (unicast pm') ↔ KeepsPass [] {0} {0, 1} {0, 1}) := by
  have hS : (goingBy [granting {0} Role.all]).authorizationManager.inForce (numbered 2).user
      (ascii "A") Role.subscriber = {0} := by
    decide +kernel
  exact deliversMore_iff numbered _ _ 1 2 [2] (ascii "A") [] _ _ (by decide +kernel)
    (by decide +kernel) hS (by decide +kernel) (by decide) (by decide) (by decide +kernel)
    (by decide +kernel)

/-- Without a publisher's entitlement an empty message passes; granted entitlement 1 as a publisher,
which its subscriber does not have, the same client is stopped. -/
theorem granted_publisher_stopped :
    let pm := goingBy [granting {0} Role.subscriber]
    let pm' := goingBy [granting {0} Role.subscriber, granting {1} Role.publisher]
    let sm := (SubscriptionManager.empty.addSubscription 2 (ascii "A")).1
    (∀ i topic role, pm.authorizationManager.inForce (numbered i).user topic role ⊆
      pm'.authorizationManager.inForce (numbered i).user topic role) ∧
    ¬ DeliversMore
      ((onSendMulticast numbered pm 1 ⟨ascii "A", []⟩ sm).2.filterMap (Call.sentTo 2))
      ((onSendMulticast numbered pm' 1 ⟨ascii "A", []⟩ sm).2.filterMap (Call.sentTo 2)) := by
  refine ⟨fun i topic role => ?_, fun h => ?_⟩
  · show scan [granting {0} Role.subscriber] _ _ _ ⊆
      scan [granting {0} Role.subscriber, granting {1} Role.publisher] _ _ _
    unfold scan
    rw [List.find?_cons, List.find?_cons]
    split
    · exact Finset.Subset.refl _
    · exact Finset.empty_subset _
  · have hsent : (onSendMulticast numbered (goingBy [granting {0} Role.subscriber]) 1
        ⟨ascii "A", []⟩ (SubscriptionManager.empty.addSubscription 2 (ascii "A")).1).2.filterMap
          (Call.sentTo 2) =
        [.forwardedMulticastData ⟨[1], ascii "host", ascii "A", []⟩] := by
      decide +kernel
    have hstopped : (onSendMulticast numbered
        (goingBy [granting {0} Role.subscriber, granting {1} Role.publisher]) 1
        ⟨ascii "A", []⟩ (SubscriptionManager.empty.addSubscription 2 (ascii "A")).1).2.filterMap
          (Call.sentTo 2) = [] := by
      decide +kernel
    rw [hsent, hstopped] at h
    obtain ⟨m', hm', -⟩ := h _ (List.mem_singleton.mpr rfl)
    cases hm'

end PublisherManager

end SquawkBus.Server
