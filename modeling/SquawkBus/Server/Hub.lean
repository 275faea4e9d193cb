import SquawkBus.Server.NotificationManager
import SquawkBus.Server.PublisherManager

/-!
# `Hub`

Dispatches the messages of authenticated clients to the three managers, and tells them of a
disconnect. A step returns the hub as it is afterwards, the calls made on interactors, and the
exception that ended the step, if one did: the tables then stay as they were at the throw.
-/

namespace SquawkBus.Server

open SquawkBus.Messages

/-! ## The hub -/

variable {ρ : Type} [RegexEngine ρ]

structure Hub (ρ : Type) [RegexEngine ρ] where
  interactors : OrdMap Bytes Ptr
  publisherManager : PublisherManager ρ
  subscriptionManager : SubscriptionManager
  notificationManager : NotificationManager ρ

namespace Hub

/-- The constructor. -/
def new (authorizationManager : AuthorizationManager ρ) : Hub ρ :=
  ⟨∅, .new authorizationManager, .empty, .empty⟩

/-- `on_startup` and `on_interrupt`: the authorizations are loaded again. -/
def reload (hub : Hub ρ) (file : Bytes → Except Exn (List (AuthorizationSpec ρ))) :
    Outcome (Hub ρ) Call Exn :=
  match hub.publisherManager.reloadAuthorizations file with
  | .ok publisherManager => .done { hub with publisherManager }
  | .error e => .fail hub e

def onConnected (identify : Ptr → Identity) (hub : Hub ρ) (interactor : Ptr) :
    Outcome (Hub ρ) Call Exn :=
  .emit { hub with
      interactors := hub.interactors.insertIfNew (identify interactor).id interactor }
    [.str interactor, .id interactor]

def onDisconnected (identify : Ptr → Identity) (hub : Hub ρ) (interactor : Ptr) :
    Outcome (Hub ρ) Call Exn :=
  let subscriptions := hub.subscriptionManager.onInteractorClosed interactor
  let publishers :=
    hub.publisherManager.onInteractorClosed identify interactor subscriptions.1
  .emit
    { interactors := hub.interactors.erase (identify interactor).id
      publisherManager := publishers.1
      subscriptionManager := subscriptions.1
      notificationManager := hub.notificationManager.onInteractorClosed interactor }
    ([.str interactor] ++ subscriptions.2.flatMap (hub.notificationManager.notify identify) ++
      publishers.2 ++ [.id interactor])

def onMessage (identify : Ptr → Identity) (hub : Hub ρ) (interactor : Ptr) :
    Message → Outcome (Hub ρ) Call Exn
  | .subscriptionRequest request =>
      let subscriptions := hub.subscriptionManager.onSubscription interactor request
      .emit { hub with subscriptionManager := subscriptions.1 }
        (.id interactor :: subscriptions.2.flatMap (hub.notificationManager.notify identify))
  | .notificationRequest request =>
      let listeners := hub.notificationManager.onListen identify interactor request
        hub.subscriptionManager
      ⟨{ hub with notificationManager := listeners.state }, .id interactor :: listeners.events,
        listeners.fault⟩
  | .unicastData request =>
      let publishers := hub.publisherManager.onSendUnicast identify interactor request
        hub.interactors
      .emit { hub with publisherManager := publishers.1 } (.id interactor :: publishers.2)
  | .multicastData request =>
      let publishers := hub.publisherManager.onSendMulticast identify interactor request
        hub.subscriptionManager
      .emit { hub with publisherManager := publishers.1 } (.id interactor :: publishers.2)
  | .authenticationRequest _ | .authenticationResponse _ | .forwardedSubscriptionRequest _
  | .forwardedMulticastData _ | .forwardedUnicastData _ =>
      ⟨hub, [.id interactor], some (.runtimeError "unhandled message")⟩

end Hub

/-! ## Steps -/

/-- A call on the hub. -/
inductive HubStep (ρ : Type) [RegexEngine ρ] where
  | message (interactor : Ptr) (message : Message)
  | connected (interactor : Ptr)
  | disconnected (interactor : Ptr)
  | reload (file : Bytes → Except Exn (List (AuthorizationSpec ρ)))

/-- The interactor a step is about. -/
def HubStep.interactor? : HubStep ρ → Option Ptr
  | .message i _ => some i
  | .connected i => some i
  | .disconnected i => some i
  | .reload _ => none

namespace Hub

def step (identify : Ptr → Identity) (hub : Hub ρ) : HubStep ρ → Outcome (Hub ρ) Call Exn
  | .message i m => hub.onMessage identify i m
  | .connected i => hub.onConnected identify i
  | .disconnected i => hub.onDisconnected identify i
  | .reload file => hub.reload file

/-- The hub after a list of steps; an exception ends its own step only. -/
def after (identify : Ptr → Identity) (hub : Hub ρ) (steps : List (HubStep ρ)) : Hub ρ :=
  Outcome.runState (step identify) hub steps

/-- The calls made in a list of steps. -/
def calls (identify : Ptr → Identity) (hub : Hub ρ) (steps : List (HubStep ρ)) : List Call :=
  Outcome.runEvents (step identify) hub steps

@[simp] theorem after_nil (identify : Ptr → Identity) (hub : Hub ρ) :
    hub.after identify [] = hub := rfl

@[simp] theorem after_append (identify : Ptr → Identity) (hub : Hub ρ)
    (steps steps' : List (HubStep ρ)) :
    hub.after identify (steps ++ steps') = (hub.after identify steps).after identify steps' :=
  Outcome.runState_append _ _ _ _

@[simp] theorem after_cons (identify : Ptr → Identity) (hub : Hub ρ) (s : HubStep ρ)
    (steps : List (HubStep ρ)) :
    hub.after identify (s :: steps) = (hub.step identify s).state.after identify steps := rfl

/-! ## What a step calls -/

/-- The interactor is in a table that the hub takes the interactors it calls from. -/
inductive Knows (hub : Hub ρ) (i : Ptr) : Prop
  | subscriber (t : Bytes)
      (h : (Table.cell hub.subscriptionManager.subscriptions t i).isSome) : Knows hub i
  | listener (p : Bytes) (hregex : p ∈ hub.notificationManager.regexCache)
      (h : (Table.cell hub.notificationManager.notifications p i).isSome) : Knows hub i
  | client (id : Bytes) (h : hub.interactors[id]? = some i) : Knows hub i

theorem knows_of_subscriber {hub : Hub ρ} {t : Bytes} {i : Ptr}
    (h : i ∈ hub.subscriptionManager.findSubscribers t) : hub.Knows i :=
  .subscriber t (SubscriptionManager.mem_findSubscribers.mp h)

/-- The message a listener gets about a subscription. -/
def subscriptionNotice (identify : Ptr → Identity) (subscriber : Ptr) (topic : Bytes)
    (isAdd : Bool) : Message :=
  .forwardedSubscriptionRequest ⟨(identify subscriber).user, (identify subscriber).host,
    (identify subscriber).id, topic, isAdd⟩

/-- What a step can send: the messages of a request, a publish or a disconnect, with what is known
of their contents. -/
inductive Sends (identify : Ptr → Identity) (hub : Hub ρ) : HubStep ρ → Ptr → Message → Prop
  /-- A request begins or ends a subscription. -/
  | subscription (subscriber : Ptr) (request : SubscriptionRequest) (listener : Ptr)
      (isAdd : Bool) :
      Sends identify hub (.message subscriber (.subscriptionRequest request)) listener
        (subscriptionNotice identify subscriber request.topic isAdd)
  /-- A disconnect ends a subscription. -/
  | closed (subscriber : Ptr) (topic : Bytes) (listener : Ptr) (isAdd : Bool)
      (h : Index.Has hub.subscriptionManager.subscriberTopics subscriber topic) :
      Sends identify hub (.disconnected subscriber) listener
        (subscriptionNotice identify subscriber topic isAdd)
  /-- A new listener is told of a subscription there is already. -/
  | listen (listener : Ptr) (request : NotificationRequest) (subscriber : Ptr) (topic : Bytes)
      (isAdd : Bool)
      (h : (Table.cell hub.subscriptionManager.subscriptions topic subscriber).isSome) :
      Sends identify hub (.message listener (.notificationRequest request)) listener
        (subscriptionNotice identify subscriber topic isAdd)
  | multicast (publisher : Ptr) (request : MulticastData) (subscriber : Ptr)
      (packets : List DataPacket) (hpackets : packets.Sublist request.dataPackets)
      (h : hub.publisherManager.authorizationManager.inForce (identify publisher).user
        request.topic Role.publisher = ∅ → request.dataPackets = []) :
      Sends identify hub (.message publisher (.multicastData request)) subscriber
        (.forwardedMulticastData ⟨(identify publisher).user, (identify publisher).host,
          request.topic, packets⟩)
  | unicast (publisher : Ptr) (request : UnicastData) (receiver : Ptr)
      (hreceiver : hub.interactors[request.clientId]? = some receiver)
      (packets : List DataPacket) (hpackets : packets.Sublist request.dataPackets)
      (h : hub.publisherManager.authorizationManager.inForce (identify publisher).user
        request.topic Role.publisher = ∅ → request.dataPackets = []) :
      Sends identify hub (.message publisher (.unicastData request)) receiver
        (.forwardedUnicastData ⟨(identify publisher).user, (identify publisher).host,
          request.clientId, request.topic, packets⟩)
  /-- The last publisher of a topic disconnects. -/
  | gone (publisher : Ptr) (topic : Bytes) (subscriber : Ptr)
      (h : topic ∈ hub.publisherManager.staleTopics publisher) :
      Sends identify hub (.disconnected publisher) subscriber
        (.forwardedMulticastData ⟨(identify publisher).user, (identify publisher).host, topic, []⟩)

end Hub

namespace NotificationManager

/-! ### Notices -/

/-- The calls of a notice go to its subscriber, and to listeners of cached patterns. -/
theorem notify_calls {identify : Ptr → Identity} {nm : NotificationManager ρ} {notice : Notice}
    {c : Call} (h : c ∈ nm.notify identify notice) :
    (c.interactor = notice.subscriber ∨
      ∃ p ∈ nm.regexCache, (Table.cell nm.notifications p c.interactor).isSome) ∧
    ∀ i m, c = .send i m →
      m = Hub.subscriptionNotice identify notice.subscriber notice.topic notice.isAdd := by
  unfold notify at h
  simp only at h
  split at h
  · cases h
  · rcases List.mem_append.mp h with h | h
    · simp only [List.mem_cons, List.not_mem_nil, or_false] at h
      rcases h with rfl | rfl | rfl <;> exact ⟨.inl rfl, fun i m hc => by cases hc⟩
    · obtain ⟨l, hl, h⟩ := List.mem_flatMap.mp h
      obtain ⟨p, regex, hregex, -, hcell⟩ :=
        mem_findListeners.mp (Std.ExtTreeSet.mem_toList.mp hl)
      have hcached : p ∈ nm.regexCache := OrdMap.mem_iff_get.mpr ⟨regex, hregex⟩
      simp only [List.mem_cons, List.not_mem_nil, or_false] at h
      rcases h with rfl | rfl | rfl
      · exact ⟨.inl rfl, fun i m hc => by cases hc⟩
      · exact ⟨.inr ⟨p, hcached, hcell⟩, fun i m hc => by cases hc⟩
      · exact ⟨.inr ⟨p, hcached, hcell⟩, fun i m hc => by cases hc; rfl⟩

/-- The calls of a listen go to the listener and to subscribers. -/
theorem onListen_calls {identify : Ptr → Identity} {nm : NotificationManager ρ} {l : Ptr}
    {request : NotificationRequest} {sm : SubscriptionManager} {c : Call}
    (h : c ∈ (nm.onListen identify l request sm).events) :
    (c.interactor = l ∨ ∃ t, (Table.cell sm.subscriptions t c.interactor).isSome) ∧
    ∀ i m, c = .send i m → i = l ∧ ∃ s t isAdd, (Table.cell sm.subscriptions t s).isSome ∧
      m = Hub.subscriptionNotice identify s t isAdd := by
  have hregister : ∀ nm : NotificationManager ρ,
      c ∈ (registerListener identify nm l request.topicPattern sm).events →
        (c.interactor = l ∨ ∃ t, (Table.cell sm.subscriptions t c.interactor).isSome) ∧
        ∀ i m, c = .send i m → i = l ∧ ∃ s t isAdd, (Table.cell sm.subscriptions t s).isSome ∧
          m = Hub.subscriptionNotice identify s t isAdd := by
    intro nm h
    unfold registerListener at h
    simp only at h
    split at h
    · cases h
    · obtain ⟨⟨topic, subscribers⟩, hmatch, h⟩ := List.mem_flatMap.mp h
      obtain ⟨s, hs, h⟩ := List.mem_flatMap.mp h
      have hcell := SubscriptionManager.cell_of_mem_findMatchingSubscriptions hmatch hs
      simp only [List.mem_cons, List.not_mem_nil, or_false] at h
      rcases h with rfl | rfl | rfl | rfl
      · exact ⟨.inr ⟨topic, hcell⟩, fun i m hc => by cases hc⟩
      · exact ⟨.inr ⟨topic, hcell⟩, fun i m hc => by cases hc⟩
      · exact ⟨.inr ⟨topic, hcell⟩, fun i m hc => by cases hc⟩
      · exact ⟨.inl rfl, fun i m hc => by cases hc; exact ⟨rfl, s, topic, true, hcell, rfl⟩⟩
  unfold onListen at h
  split at h
  · unfold addListener at h
    split at h
    · split at h
      · cases h
      · exact hregister _ h
    · exact hregister _ h
  · cases h

end NotificationManager

namespace Hub

/-! ### Those it may call -/

/-- What a step may call: the interactor it is about and interactors from the hub's tables, and it may
send what `Sends` lists. -/
def MayCall (identify : Ptr → Identity) (hub : Hub ρ) (s : HubStep ρ) (c : Call) : Prop :=
  (s.interactor? = some c.interactor ∨ hub.Knows c.interactor) ∧
    ∀ i m, c = .send i m → Sends identify hub s i m

section MayCall

variable {identify : Ptr → Identity} {hub : Hub ρ} {s : HubStep ρ} {j : Ptr} {c : Call}

/-- A step may call the accessors of the interactor it is about. -/
theorem mayCall_own (hs : s.interactor? = some c.interactor) (hno : ∀ i m, c ≠ .send i m) :
    MayCall identify hub s c :=
  ⟨.inl hs, fun i m heq => absurd heq (hno i m)⟩

/-- A step may call the accessors of an interactor in the tables. -/
theorem mayCall_known (hknown : hub.Knows c.interactor) (hno : ∀ i m, c ≠ .send i m) :
    MayCall identify hub s c :=
  ⟨.inr hknown, fun i m heq => absurd heq (hno i m)⟩

/-- The notices of a subscriber go to listeners in the tables. -/
theorem mayCall_notices {notices : List Notice} (hs : s.interactor? = some j)
    (hnotices : ∀ n ∈ notices, n.subscriber = j)
    (hsends : ∀ n ∈ notices, ∀ i, Sends identify hub s i
      (subscriptionNotice identify j n.topic n.isAdd))
    (h : c ∈ notices.flatMap (hub.notificationManager.notify identify)) :
    MayCall identify hub s c := by
  obtain ⟨n, hn, hc⟩ := List.mem_flatMap.mp h
  obtain ⟨hwho, hwhat⟩ := NotificationManager.notify_calls hc
  rw [hnotices n hn] at hwho hwhat
  refine ⟨?_, fun i m heq => ?_⟩
  · rcases hwho with heq | ⟨p, hcached, hcell⟩
    · exact .inl (hs.trans (congrArg some heq.symm))
    · exact .inr (.listener p hcached hcell)
  · rw [hwhat i m heq]
    exact hsends n hn i

theorem mayCall_onListen {r : NotificationRequest}
    (h : c ∈ (hub.notificationManager.onListen identify j r hub.subscriptionManager).events) :
    MayCall identify hub (.message j (.notificationRequest r)) c := by
  obtain ⟨hwho, hwhat⟩ := NotificationManager.onListen_calls h
  refine ⟨?_, fun i m heq => ?_⟩
  · rcases hwho with heq | ⟨t, hcell⟩
    · exact .inl (congrArg some heq.symm)
    · exact .inr (.subscriber t hcell)
  · obtain ⟨rfl, s, t, isAdd, hcell, rfl⟩ := hwhat i m heq
    exact .listen i r s t isAdd hcell

theorem mayCall_onSendUnicast {r : UnicastData}
    (h : c ∈ (hub.publisherManager.onSendUnicast identify j r hub.interactors).2) :
    MayCall identify hub (.message j (.unicastData r)) c := by
  rcases PublisherManager.onSendUnicast_cases identify hub.publisherManager j r
    hub.interactors with hnop | ⟨receiver, hreceiver, -, hcalls⟩ |
    ⟨receiver, packets, hreceiver, hnone, hpackets, -, hcalls⟩
  · rw [hnop] at h
    cases h
  · rw [hcalls] at h
    have hknown : hub.Knows receiver := .client r.clientId hreceiver
    simp only [List.mem_cons, List.not_mem_nil, or_false] at h
    rcases h with rfl | rfl | rfl | rfl
    · exact mayCall_own rfl (by simp)
    · exact mayCall_known hknown (by simp)
    · exact mayCall_own rfl (by simp)
    · exact mayCall_known hknown (by simp)
  · rw [hcalls] at h
    have hknown : hub.Knows receiver := .client r.clientId hreceiver
    simp only [List.mem_cons, List.not_mem_nil, or_false] at h
    rcases h with rfl | rfl | rfl | rfl | rfl
    · exact mayCall_own rfl (by simp)
    · exact mayCall_known hknown (by simp)
    · exact mayCall_own rfl (by simp)
    · exact mayCall_own rfl (by simp)
    · refine ⟨.inr hknown, fun i m heq => ?_⟩
      cases heq
      exact .unicast j r receiver hreceiver packets hpackets hnone

theorem mayCall_onSendMulticast {r : MulticastData}
    (h : c ∈ (hub.publisherManager.onSendMulticast identify j r hub.subscriptionManager).2) :
    MayCall identify hub (.message j (.multicastData r)) c := by
  rcases (PublisherManager.onSendMulticast_spec identify hub.publisherManager j r
    hub.subscriptionManager).2 c h with rfl | rfl | ⟨s, hs, rfl⟩ |
    ⟨hnone, s, hs, packets, hpackets, rfl⟩
  · exact mayCall_own rfl (by simp)
  · exact mayCall_own rfl (by simp)
  · exact mayCall_known (knows_of_subscriber (Std.ExtTreeSet.mem_toList.mp hs)) (by simp)
  · refine ⟨.inr (knows_of_subscriber (Std.ExtTreeSet.mem_toList.mp hs)), fun i m heq => ?_⟩
    cases heq
    exact .multicast j r s packets hpackets hnone

/-- A disconnect tells the subscribers that are left of the topics left without publishers. -/
theorem mayCall_publisherClosed
    (h : c ∈ (hub.publisherManager.onInteractorClosed identify j
      (hub.subscriptionManager.onInteractorClosed j).1).2) :
    MayCall identify hub (.disconnected j) c := by
  rcases PublisherManager.onInteractorClosed_cases identify hub.publisherManager j
    (hub.subscriptionManager.onInteractorClosed j).1 with ⟨-, hnop⟩ | ⟨-, -, -, -, hcalls⟩
  · rw [hnop] at h
    cases h
  · obtain ⟨topic, hstale, rfl | rfl | ⟨s, hs, rfl⟩⟩ := hcalls c h
    · exact mayCall_own rfl (by simp)
    · exact mayCall_own rfl (by simp)
    · -- The subscribers left after the removal were there before it.
      have hcell := SubscriptionManager.mem_findSubscribers.mp hs
      rw [SubscriptionManager.onInteractorClosed,
        (SubscriptionManager.closed_removeInteractor _ _).cells] at hcell
      split at hcell
      · cases hcell
      · refine ⟨.inr (.subscriber topic hcell), fun i m heq => ?_⟩
        cases heq
        exact .gone j topic s hstale

end MayCall

/-! ### Every step -/

/-- **A step calls the interactor it is about, and interactors from the hub's tables**, and sends
nothing but what `Sends` lists. -/
theorem step_calls {identify : Ptr → Identity} {hub : Hub ρ} {s : HubStep ρ} {c : Call}
    (h : c ∈ (hub.step identify s).events) :
    (s.interactor? = some c.interactor ∨ hub.Knows c.interactor) ∧
      ∀ i m, c = .send i m → Sends identify hub s i m := by
  show MayCall identify hub s c
  cases s with
  | message j m =>
      cases m with
      | subscriptionRequest r =>
          rcases List.mem_cons.mp h with rfl | h
          · exact mayCall_own rfl (by simp)
          · refine mayCall_notices rfl
              (fun n hn => (SubscriptionManager.of_mem_onSubscription hn).1) (fun n hn i => ?_) h
            rw [(SubscriptionManager.of_mem_onSubscription hn).2]
            exact .subscription j r i n.isAdd
      | notificationRequest r =>
          rcases List.mem_cons.mp h with rfl | h
          · exact mayCall_own rfl (by simp)
          · exact mayCall_onListen h
      | unicastData r =>
          rcases List.mem_cons.mp h with rfl | h
          · exact mayCall_own rfl (by simp)
          · exact mayCall_onSendUnicast h
      | multicastData r =>
          rcases List.mem_cons.mp h with rfl | h
          · exact mayCall_own rfl (by simp)
          · exact mayCall_onSendMulticast h
      | _ =>
          obtain rfl := List.mem_singleton.mp h
          exact mayCall_own rfl (by simp)
  | connected j =>
      have hj : c = .str j ∨ c = .id j := by simpa [step, onConnected] using h
      rcases hj with rfl | rfl <;> exact mayCall_own rfl (by simp)
  | disconnected j =>
      simp only [step, onDisconnected, Outcome.emit_events, List.mem_append,
        List.mem_singleton] at h
      rcases h with ((rfl | h) | h) | rfl
      · exact mayCall_own rfl (by simp)
      · exact mayCall_notices rfl
          (fun n hn => (SubscriptionManager.of_mem_removeInteractor hn).1)
          (fun n hn i => .closed j n.topic i n.isAdd
            (SubscriptionManager.of_mem_removeInteractor hn).2) h
      · exact mayCall_publisherClosed h
      · exact mayCall_own rfl (by simp)
  | reload file =>
      simp only [step, reload] at h
      split at h <;> cases h

end Hub

end SquawkBus.Server
