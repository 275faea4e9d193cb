import SquawkBus.Server.Hub

/-!
# Noninterference of unentitled data

What a client is sent does not depend on packets it is not entitled to. Two runs of the hub over the
same steps, but with multicasts that may differ in packets hidden from the client, send it the same
messages. The proof is by unwinding, and the relation that is kept is equality of the hubs: a
publisher is registered and the subscribers' entitlements are looked up whatever the packets are, so
hidden packets leave no trace for a later step to show.
-/

namespace SquawkBus.Server

open SquawkBus.Messages

variable {ρ : Type} [RegexEngine ρ]

/-- The message the call sends to `i`, if it sends one. -/
def Call.sentTo (i : Ptr) : Call → Option Message
  | .send j message => if j = i then some message else none
  | _ => none

/-! ## One multicast -/

namespace PublisherManager

/-- **The packet may pass**: its entitlement is held by the publisher as such and by the subscriber
as such, on the topic. -/
def MayPass (identify : Ptr → Identity) (pm : PublisherManager ρ) (publisher subscriber : Ptr)
    (topic : Bytes) (packet : DataPacket) : Prop :=
  packet.entitlement ∈
      pm.authorizationManager.inForce (identify publisher).user topic Role.publisher ∧
    packet.entitlement ∈
      pm.authorizationManager.inForce (identify subscriber).user topic Role.subscriber

instance decidableMayPass (identify : Ptr → Identity) (pm : PublisherManager ρ)
    (publisher subscriber : Ptr) (topic : Bytes) :
    DecidablePred (pm.MayPass identify publisher subscriber topic) :=
  fun _ => inferInstanceAs (Decidable (_ ∧ _))

/-- The packets of a multicast that may pass to the subscriber. -/
def visible (identify : Ptr → Identity) (pm : PublisherManager ρ) (publisher subscriber : Ptr)
    (request : MulticastData) : List DataPacket :=
  request.dataPackets.filter (pm.MayPass identify publisher subscriber request.topic)

theorem getAuthorizedData_eq_visible (identify : Ptr → Identity) (pm : PublisherManager ρ)
    (publisher subscriber : Ptr) (request : MulticastData) :
    getAuthorizedData request.dataPackets
      (pm.authorizationManager.inForce (identify publisher).user request.topic Role.publisher ∩
        pm.authorizationManager.inForce (identify subscriber).user request.topic Role.subscriber) =
      pm.visible identify publisher subscriber request := by
  unfold getAuthorizedData visible
  congr 1
  funext packet
  rw [Bool.eq_iff_iff, decide_eq_true_iff]
  simp [DataPacket.isAuthorized, MayPass]

/-- What a multicast sends to a subscriber with these entitlements. -/
def forwarded (identify : Ptr → Identity) (publisher : Ptr) (request : MulticastData)
    (publisherEntitlements subscriberEntitlements : Finset Int32) : List Message :=
  let authorized :=
    getAuthorizedData request.dataPackets (publisherEntitlements ∩ subscriberEntitlements)
  if publisherEntitlements ≠ ∅ ∧ publisherEntitlements ∩ subscriberEntitlements = ∅ then []
  else if request.dataPackets ≠ [] ∧ authorized = [] then []
  else [.forwardedMulticastData ⟨(identify publisher).user, (identify publisher).host,
    request.topic, authorized⟩]

/-- A round of the multicast loop asks for the subscriber's entitlements, and sends it what it may
have. -/
theorem multicastTo_sent (identify : Ptr → Identity) (publisher : Ptr) (request : MulticastData)
    (publisherEntitlements : Finset Int32) (loop : MulticastLoop ρ) (subscriber i : Ptr) :
    (multicastTo identify publisher request publisherEntitlements loop subscriber).manager =
        (loop.manager.entitlements (identify subscriber).user request.topic Role.subscriber).2 ∧
      (multicastTo identify publisher request publisherEntitlements loop subscriber).calls.filterMap
          (Call.sentTo i) =
        loop.calls.filterMap (Call.sentTo i) ++
          if subscriber = i then
            forwarded identify publisher request publisherEntitlements
              (loop.manager.authorizationManager.inForce (identify subscriber).user request.topic
                Role.subscriber)
          else [] := by
  unfold multicastTo forwarded
  simp only [entitlements_fst]
  split
  · refine ⟨rfl, ?_⟩
    simp [Call.sentTo]
  · split
    · refine ⟨rfl, ?_⟩
      simp [Call.sentTo]
    · refine ⟨rfl, ?_⟩
      by_cases hi : subscriber = i <;> simp [Call.sentTo, hi, List.filterMap_cons]

/-- The loops of two multicasts agree: all that differs is what has been sent to others than `i`.
The manager `pm` is the one they started from. -/
structure LoopsAgree (pm : PublisherManager ρ) (i : Ptr) (loop loop' : MulticastLoop ρ) : Prop where
  manager : loop'.manager = loop.manager
  started : SameBut pm loop.manager
  sent : loop.calls.filterMap (Call.sentTo i) = loop'.calls.filterMap (Call.sentTo i)

/-- The same messages pass when the same packets are visible, and packets are there in both requests
or in neither. -/
theorem forwarded_congr {identify : Ptr → Identity} {pm : PublisherManager ρ}
    {publisher subscriber : Ptr} {request request' : MulticastData}
    (htopic : request'.topic = request.topic)
    (hvisible : pm.visible identify publisher subscriber request =
      pm.visible identify publisher subscriber request')
    (hempty : request.dataPackets = [] ↔ request'.dataPackets = []) :
    forwarded identify publisher request
        (pm.authorizationManager.inForce (identify publisher).user request.topic Role.publisher)
        (pm.authorizationManager.inForce (identify subscriber).user request.topic
          Role.subscriber) =
      forwarded identify publisher request'
        (pm.authorizationManager.inForce (identify publisher).user request.topic Role.publisher)
        (pm.authorizationManager.inForce (identify subscriber).user request.topic
          Role.subscriber) := by
  have hauthorized := getAuthorizedData_eq_visible identify pm publisher subscriber request'
  rw [← hvisible, htopic] at hauthorized
  simp only [forwarded, getAuthorizedData_eq_visible, hauthorized, htopic, ne_eq, hempty]

/-- **Hidden packets do not matter to a multicast**: the manager it leaves is the same, and so is
what `i` is sent. -/
theorem onSendMulticast_congr (identify : Ptr → Identity) (pm : PublisherManager ρ)
    (publisher i : Ptr) (sm : SubscriptionManager) {request request' : MulticastData}
    (htopic : request'.topic = request.topic)
    (hvisible : pm.visible identify publisher i request = pm.visible identify publisher i request')
    (hempty : request.dataPackets = [] ↔ request'.dataPackets = []) :
    (onSendMulticast identify pm publisher request sm).1 =
        (onSendMulticast identify pm publisher request' sm).1 ∧
      (onSendMulticast identify pm publisher request sm).2.filterMap (Call.sentTo i) =
        (onSendMulticast identify pm publisher request' sm).2.filterMap (Call.sentTo i) := by
  unfold onSendMulticast
  simp only [htopic, entitlements_fst]
  split
  · exact ⟨rfl, rfl⟩
  · have hloops : LoopsAgree (pm.addPublisher publisher request.topic) i
        ((sm.findSubscribers request.topic).toList.foldl (multicastTo identify publisher request
          ((pm.addPublisher publisher request.topic).authorizationManager.inForce
            (identify publisher).user request.topic Role.publisher))
          ⟨((pm.addPublisher publisher request.topic).entitlements (identify publisher).user
            request.topic Role.publisher).2, [.user publisher], false⟩)
        ((sm.findSubscribers request.topic).toList.foldl (multicastTo identify publisher request'
          ((pm.addPublisher publisher request.topic).authorizationManager.inForce
            (identify publisher).user request.topic Role.publisher))
          ⟨((pm.addPublisher publisher request.topic).entitlements (identify publisher).user
            request.topic Role.publisher).2, [.user publisher], false⟩) := by
      refine List.foldl_rel ⟨rfl, sameBut_entitlements _ _ _ _, rfl⟩ fun s _ loop loop' h => ?_
      obtain ⟨hmanager, hsent⟩ := multicastTo_sent identify publisher request
        ((pm.addPublisher publisher request.topic).authorizationManager.inForce
          (identify publisher).user request.topic Role.publisher) loop s i
      obtain ⟨hmanager', hsent'⟩ := multicastTo_sent identify publisher request'
        ((pm.addPublisher publisher request.topic).authorizationManager.inForce
          (identify publisher).user request.topic Role.publisher) loop' s i
      refine ⟨?_, ?_, ?_⟩
      · rw [hmanager, hmanager', h.manager, htopic]
      · rw [hmanager]
        exact h.started.trans (sameBut_entitlements _ _ _ _)
      · rw [hsent, hsent', h.sent, h.manager, h.started.inForce, htopic]
        congr 1
        split
        · next hs =>
          rw [hs]
          exact forwarded_congr htopic hvisible hempty
        · rfl
    have hfirst := hloops.started.addPublisher_again
    refine ⟨?_, hloops.sent⟩
    rw [hloops.manager]
    split <;> split <;> simp only [hfirst]

end PublisherManager

/-! ## Two runs of the hub -/

namespace Hub

/-- The step does not send a unicast. -/
def NoUnicast (s : HubStep ρ) : Prop := ∀ j request, s ≠ .message j (.unicastData request)

/-- **The steps differ in nothing that `i` is entitled to**: they are the same, or multicasts of one
publisher on one topic with the same packets visible to `i`, both empty or both not. -/
inductive Alike (identify : Ptr → Identity) (i : Ptr) (hub : Hub ρ) :
    HubStep ρ → HubStep ρ → Prop
  | same (s : HubStep ρ) (h : NoUnicast s) : Alike identify i hub s s
  | multicast (publisher : Ptr) (topic : Bytes) (packets packets' : List DataPacket)
      (hvisible : hub.publisherManager.visible identify publisher i ⟨topic, packets⟩ =
        hub.publisherManager.visible identify publisher i ⟨topic, packets'⟩)
      (hempty : packets = [] ↔ packets' = []) :
      Alike identify i hub (.message publisher (.multicastData ⟨topic, packets⟩))
        (.message publisher (.multicastData ⟨topic, packets'⟩))

/-- Steps that are alike leave the same hub, and show `i` the same. -/
theorem Alike.step {identify : Ptr → Identity} {i : Ptr} {hub : Hub ρ} {s s' : HubStep ρ}
    (h : Alike identify i hub s s') :
    (hub.step identify s).state = (hub.step identify s').state ∧
      (hub.step identify s).events.filterMap (Call.sentTo i) =
        (hub.step identify s').events.filterMap (Call.sentTo i) := by
  cases h with
  | same => exact ⟨rfl, rfl⟩
  | multicast publisher topic packets packets' hvisible hempty =>
      have htopic : (MulticastData.mk topic packets').topic = (MulticastData.mk topic packets).topic :=
        rfl
      obtain ⟨hmanager, hsent⟩ := PublisherManager.onSendMulticast_congr identify
        hub.publisherManager publisher i hub.subscriptionManager htopic hvisible hempty
      constructor
      · show ({ hub with publisherManager := _ } : Hub ρ) = { hub with publisherManager := _ }
        rw [hmanager]
      · exact hsent

/-- **Data a client is not entitled to does not interfere with what it is sent**: matched runs,
alike at each step as far as `i` may see, send `i` the same messages in the same order. -/
theorem sent_eq_of_matched (identify : Ptr → Identity) (am : AuthorizationManager ρ) (i : Ptr)
    (steps steps' : List (HubStep ρ))
    (h : Outcome.Matched (step identify) (Alike identify i) (new am) steps steps') :
    ((new am).calls identify steps).filterMap (Call.sentTo i) =
      ((new am).calls identify steps').filterMap (Call.sentTo i) := by
  refine Outcome.unwinding Eq ?_ rfl h
  rintro hub _ s s' rfl halike
  exact halike.step

/-- The packets with entitlement 7 are hidden: one run has one of them, the other two. -/
theorem sent_eq_of_hidden_packets :
    let before : List (HubStep PlainRegex) :=
      [.reload fun _ => .ok [], .message 2 (.subscriptionRequest ⟨ascii "A", true⟩)]
    let seen : DataPacket := ⟨0, ascii "text", ascii "seen"⟩
    let hidden : Bytes → DataPacket := fun data => ⟨7, ascii "text", data⟩
    ((new (.new none [])).calls numbered (before ++
        [.message 1 (.multicastData ⟨ascii "A", [seen, hidden [1]]⟩),
          .disconnected 1])).filterMap (Call.sentTo 2) =
      ((new (.new none [])).calls numbered (before ++
        [.message 1 (.multicastData ⟨ascii "A", [hidden [2], seen, hidden [3]]⟩),
          .disconnected 1])).filterMap (Call.sentTo 2) :=
  sent_eq_of_matched numbered _ 2 _ _
    ⟨.same _ (by simp [NoUnicast]), .same _ (by simp [NoUnicast]),
      .multicast 1 (ascii "A") _ _ (by decide +kernel) (by decide),
      .same _ (by simp [NoUnicast]), trivial⟩

end Hub

end SquawkBus.Server
