import SquawkBus.Library.Ledger
import SquawkBus.Server.AuthorizationHistory
import SquawkBus.Server.Delivery
import SquawkBus.Server.PublisherBooks
import SquawkBus.Server.SubscriptionCounts
import Mathlib.Data.Set.Insert

/-!
# The broker that the hub is for

A broker of publications, with sets and functions where the hub has tables, caches and their reverses:
who is connected under which id, who holds how many subscriptions, who has published on what, and the
authorizations in force. What it delivers to a client is said outright.

The hub refines it (`data_eq_delivers`): in every run every client is sent exactly the data that the
broker delivers. This takes that a subscription is given up only by a client that holds it once and
alone, since the subscription manager is not right otherwise.
-/

namespace SquawkBus.Server

open SquawkBus.Messages

/-! ## The broker -/

variable {ρ : Type} [RegexEngine ρ]

structure Broker (ρ : Type) [RegexEngine ρ] where
  clients : Bytes → Option Ptr
  subscriptions : Ptr → Bytes → Nat
  publishers : Bytes → Set Ptr
  specs : List (AuthorizationSpec ρ)

namespace Broker

/-- Nobody is connected, and nothing is authorized. -/
def new : Broker ρ := ⟨fun _ => none, fun _ _ => 0, fun _ => ∅, []⟩

variable (identify : Ptr → Identity)

/-- What the publisher may say on the topic and the receiver may hear. -/
def shared (broker : Broker ρ) (publisher receiver : Ptr) (topic : Bytes) : Finset Int32 :=
  scan broker.specs (identify publisher).user topic Role.publisher ∩
    scan broker.specs (identify receiver).user topic Role.subscriber

/-- The packets that the receiver may have: those with an entitlement that is shared. -/
def allowed (broker : Broker ρ) (publisher receiver : Ptr) (request : MulticastData) :
    List DataPacket :=
  request.dataPackets.filter fun packet =>
    packet.isAuthorized (broker.shared identify publisher receiver request.topic)

/-- **Something is delivered** if there is a packet to deliver. A publish without packets is delivered
if anything is shared, or if the publisher may not say anything. -/
def Delivered (broker : Broker ρ) (publisher receiver : Ptr) (request : MulticastData) : Prop :=
  (request.dataPackets = [] ∧
      (scan broker.specs (identify publisher).user request.topic Role.publisher = ∅ ∨
        (broker.shared identify publisher receiver request.topic).Nonempty)) ∨
    broker.allowed identify publisher receiver request ≠ []

instance (broker : Broker ρ) (publisher receiver : Ptr) (request : MulticastData) :
    Decidable (broker.Delivered identify publisher receiver request) :=
  inferInstanceAs (Decidable (_ ∨ _))

/-- What comes of a publish for a receiver: at most one message. -/
def publication (broker : Broker ρ) (publisher receiver : Ptr)
    (request : MulticastData) : List Message :=
  if broker.Delivered identify publisher receiver request then
    [.forwardedMulticastData ⟨(identify publisher).user, (identify publisher).host, request.topic,
      broker.allowed identify publisher receiver request⟩]
  else []

/-- **What the broker delivers** to a client in a step: publications on the topics it subscribes to, and
those addressed to it; and when a publisher leaves, the news of it, once for each topic on which
nobody else has published. -/
def Delivers (broker : Broker ρ) (receiver : Ptr) : HubStep ρ → List Message → Prop
  | .message publisher (.multicastData request), messages =>
      messages = if 0 < broker.subscriptions receiver request.topic then
        broker.publication identify publisher receiver request else []
  | .message publisher (.unicastData request), messages =>
      messages = if broker.clients request.clientId = some receiver then
        (broker.publication identify publisher receiver ⟨request.topic, request.dataPackets⟩).map
          (PublisherManager.asUnicast request.clientId) else []
  | .disconnected publisher, messages =>
      messages.Nodup ∧ ∀ message, message ∈ messages ↔ ∃ topic,
        broker.publishers topic = {publisher} ∧ publisher ≠ receiver ∧
          0 < broker.subscriptions receiver topic ∧
            message = PublisherManager.farewell identify publisher topic
  | _, messages => messages = []

/-- The publisher has published on the topic. -/
def withPublisher (broker : Broker ρ) (publisher : Ptr) (topic : Bytes) : Broker ρ :=
  { broker with
    publishers := fun topic' =>
      if topic = topic' then insert publisher (broker.publishers topic')
      else broker.publishers topic' }

/-- The broker after a step. `path` and `cmdLineSpecs` say where the authorizations come from. -/
def step (path : Option Bytes) (cmdLineSpecs : List (AuthorizationSpec ρ))
    (broker : Broker ρ) : HubStep ρ → Broker ρ
  | .connected i =>
      { broker with
        clients := fun id =>
          if (identify i).id = id ∧ broker.clients id = none then some i else broker.clients id }
  | .disconnected i =>
      { broker with
        clients := fun id => if (identify i).id = id then none else broker.clients id
        subscriptions := Ledger.apply broker.subscriptions (.dropAll i)
        publishers := fun topic => broker.publishers topic \ {i} }
  | .message i (.subscriptionRequest request) =>
      { broker with
        subscriptions := Ledger.apply broker.subscriptions
          (SubscriptionOp.entry (.request i request)) }
  | .message i (.multicastData request) => broker.withPublisher i request.topic
  | .message i (.unicastData request) =>
      match broker.clients request.clientId with
      | none => broker
      | some receiver =>
          if broker.Delivered identify i receiver ⟨request.topic, request.dataPackets⟩ then
            broker.withPublisher i request.topic
          else broker
  | .message _ _ => broker
  | .reload file =>
      { broker with
        specs := (configured path cmdLineSpecs file).toOption.getD
          broker.specs }

/-- A subscription is given up by a client that does not hold it, or holds it once and alone; and nobody
holds `2 ^ 31` of a kind. -/
def Orderly (broker : Broker ρ) : HubStep ρ → Prop
  | .message i (.subscriptionRequest ⟨topic, true⟩) => broker.subscriptions i topic + 1 < 2 ^ 31
  | .message i (.subscriptionRequest ⟨topic, false⟩) =>
      broker.subscriptions i topic = 0 ∨
        (broker.subscriptions i topic = 1 ∧ ∀ j, i ≠ j → broker.subscriptions j topic = 0)
  | _ => True

end Broker

/-! ## What it means for the hub -/

/-- The message carries data, and is not about a subscription. -/
def carriesData : Message → Bool
  | .forwardedMulticastData _ | .forwardedUnicastData _ => true
  | _ => false

/-- The data that a step sends to a client. -/
def Hub.dataTo (identify : Ptr → Identity) (hub : Hub ρ) (receiver : Ptr) (step : HubStep ρ) :
    List Message :=
  ((hub.step identify step).events.filterMap (Call.sentTo receiver)).filter carriesData

/-- **The hub and the broker**: the tables say what the broker has, and their reverses agree. -/
structure Hub.Refines (path : Option Bytes) (cmdLineSpecs : List (AuthorizationSpec ρ)) (hub : Hub ρ)
    (broker : Broker ρ) : Prop where
  clients : ∀ id : Bytes, hub.interactors[id]? = broker.clients id
  subscriptions : hub.subscriptionManager.Accounts broker.subscriptions
  agree : hub.publisherManager.Agree
  publishers : ∀ topic p,
    Index.Has hub.publisherManager.topicPublishers topic p ↔ p ∈ broker.publishers topic
  authorizations : AuthorizationManager.GoesBy path cmdLineSpecs
    hub.publisherManager.authorizationManager broker.specs

/-! ## The authorizations in force -/

namespace PublisherManager

section

variable {P : AuthorizationManager ρ → Prop} {pm : PublisherManager ρ}

/-- What the queries of a multicast keep, a multicast keeps. -/
theorem keeps_onSendMulticast (identify : Ptr → Identity)
    (hquery : ∀ manager user topic role, P manager →
      P (AuthorizationManager.entitlements manager user topic role).2)
    (h : P pm.authorizationManager) (publisher : Ptr) (request : MulticastData)
    (sm : SubscriptionManager) :
    P (onSendMulticast identify pm publisher request sm).1.authorizationManager := by
  have hloop : ∀ (entitlements : Finset Int32) (subscribers : List Ptr) (loop : MulticastLoop ρ),
      P loop.manager.authorizationManager → P (subscribers.foldl
        (multicastTo identify publisher request entitlements) loop).manager.authorizationManager := by
    intro entitlements subscribers
    induction subscribers with
    | nil => exact fun _ h => h
    | cons subscriber subscribers ih =>
        intro loop hloop
        refine ih _ ?_
        have hasked := hquery _ (identify subscriber).user request.topic Role.subscriber hloop
        unfold multicastTo
        simp only
        split
        · exact hasked
        · split <;> exact hasked
  have hasked := hquery _ (identify publisher).user request.topic Role.publisher h
  unfold onSendMulticast
  simp only
  split
  · exact h
  · split
    · exact hloop _ _ _ hasked
    · exact hloop _ _ _ hasked

theorem keeps_onSendUnicast (identify : Ptr → Identity)
    (hquery : ∀ manager user topic role, P manager →
      P (AuthorizationManager.entitlements manager user topic role).2)
    (h : P pm.authorizationManager) (publisher : Ptr) (request : UnicastData)
    (interactors : OrdMap Bytes Ptr) :
    P (onSendUnicast identify pm publisher request interactors).1.authorizationManager := by
  have hasked := hquery _ (identify publisher).user request.topic Role.publisher h
  unfold onSendUnicast
  split
  · exact h
  · next receiver _ =>
    have hboth := hquery _ (identify receiver).user request.topic Role.subscriber hasked
    simp only
    split
    · exact hboth
    · split <;> exact hboth

theorem keeps_onInteractorClosed (identify : Ptr → Identity) (pm : PublisherManager ρ)
    (interactor : Ptr) (sm : SubscriptionManager) :
    (onInteractorClosed identify pm interactor sm).1.authorizationManager =
      pm.authorizationManager := by
  unfold onInteractorClosed
  split <;> rfl

end

end PublisherManager

namespace Hub

variable {identify : Ptr → Identity} {path : Option Bytes}
  {cmdLineSpecs : List (AuthorizationSpec ρ)} {hub : Hub ρ} {broker : Broker ρ}

theorem refines_new (path : Option Bytes) (cmdLineSpecs : List (AuthorizationSpec ρ)) :
    (new (.new path cmdLineSpecs)).Refines path cmdLineSpecs Broker.new where
  clients id := by simp [new, Broker.new]
  subscriptions := SubscriptionManager.accounts_empty
  agree := PublisherManager.agree_new _
  publishers topic p := by simp [new, PublisherManager.new, Broker.new]
  authorizations := ⟨rfl, rfl, rfl⟩

/-- The authorizations in force are those of the broker. -/
theorem Refines.inForce (h : hub.Refines path cmdLineSpecs broker) (user topic : Bytes)
    (role : Role) : hub.publisherManager.authorizationManager.inForce user topic role =
      scan broker.specs user topic role := by
  rw [AuthorizationManager.inForce, h.authorizations.specs]

/-- **What a publish forwards** is what the broker makes of it. -/
theorem Refines.forwarded (h : hub.Refines path cmdLineSpecs broker) (publisher receiver : Ptr)
    (request : MulticastData) :
    hub.publisherManager.forwardedInForce identify publisher receiver request =
      broker.publication identify publisher receiver request := by
  rw [PublisherManager.forwardedInForce, PublisherManager.forwarded_eq, h.inForce, h.inForce]
  unfold Broker.publication
  exact if_congr Iff.rfl rfl rfl

/-- A subscriber is found where the broker has it. -/
theorem Refines.mem_findSubscribers (h : hub.Refines path cmdLineSpecs broker) (s : Ptr)
    (topic : Bytes) : s ∈ hub.subscriptionManager.findSubscribers topic ↔
      0 < broker.subscriptions s topic :=
  (h.subscriptions.counts s topic).1

/-! ## One step -/

/-- A remove in order is one that the subscription manager gets right. -/
theorem Refines.removesLast (h : hub.Refines path cmdLineSpecs broker) {i : Ptr} {topic : Bytes}
    (hok : broker.Orderly (.message i (.subscriptionRequest ⟨topic, false⟩))) :
    hub.subscriptionManager.RemovesLast (.request i ⟨topic, false⟩) := by
  refine SubscriptionManager.removesLast_iff.mpr ?_
  simp only [h.subscriptions.cells]
  rcases hok with hzero | ⟨hone, hothers⟩
  · exact .inl (by rw [hzero]; rfl)
  · exact .inr ⟨by rw [hone]; rfl, fun j hj => by rw [hothers j hj]; rfl⟩

theorem Refines.subscribe (h : hub.Refines path cmdLineSpecs broker) {i : Ptr}
    {request : SubscriptionRequest}
    (hok : broker.Orderly (.message i (.subscriptionRequest request))) :
    (hub.subscriptionManager.onSubscription i request).1.Accounts
      (Ledger.apply broker.subscriptions (SubscriptionOp.entry (.request i request))) := by
  obtain ⟨topic, isAdd⟩ := request
  cases isAdd with
  | true => exact h.subscriptions.add hok
  | false => exact h.subscriptions.remove (h.removesLast hok)

/-- A publisher is entered where the broker enters it. -/
theorem Refines.withPublisher (h : hub.Refines path cmdLineSpecs broker) {pm : PublisherManager ρ}
    {i : Ptr} {topic : Bytes} (hpublished : PublisherManager.SameBut
      (hub.publisherManager.addPublisher i topic) pm)
    (hgoes : AuthorizationManager.GoesBy path cmdLineSpecs pm.authorizationManager broker.specs) :
    Refines path cmdLineSpecs { hub with publisherManager := pm } (broker.withPublisher i topic) where
  clients := h.clients
  subscriptions := h.subscriptions
  agree := (h.agree.addPublisher i topic).sameBut hpublished
  publishers topic' p := by
    show Index.Has pm.topicPublishers topic' p ↔ p ∈ if _ then _ else _
    rw [hpublished.topicPublishers]
    refine (Index.has_add _ _ _ _ _).trans ?_
    split
    · next htopic => simp [htopic, h.publishers, Set.mem_insert_iff, eq_comm]
    · next htopic => simp [htopic, h.publishers]
  authorizations := hgoes

theorem goesBy_query {specs : List (AuthorizationSpec ρ)} (manager : AuthorizationManager ρ)
    (user topic : Bytes) (role : Role)
    (h : AuthorizationManager.GoesBy path cmdLineSpecs manager specs) :
    AuthorizationManager.GoesBy path cmdLineSpecs (manager.entitlements user topic role).2 specs :=
  h.step (.query user topic role)

/-- The hub asks for authorizations and does not change them. -/
theorem goesBy_step {specs : List (AuthorizationSpec ρ)}
    (h : AuthorizationManager.GoesBy path cmdLineSpecs hub.publisherManager.authorizationManager specs)
    {step : HubStep ρ} (hstep : ∀ file, step ≠ .reload file) :
    AuthorizationManager.GoesBy path cmdLineSpecs
      (hub.step identify step).state.publisherManager.authorizationManager specs := by
  cases step with
  | message i message =>
      cases message with
      | unicastData request =>
          exact PublisherManager.keeps_onSendUnicast identify goesBy_query h i request hub.interactors
      | multicastData request =>
          exact PublisherManager.keeps_onSendMulticast identify goesBy_query h i request
            hub.subscriptionManager
      | _ => exact h
  | connected i => exact h
  | disconnected i =>
      show AuthorizationManager.GoesBy path cmdLineSpecs
        (hub.publisherManager.onInteractorClosed identify i _).1.authorizationManager _
      rw [PublisherManager.keeps_onInteractorClosed]
      exact h
  | reload file => exact absurd rfl (hstep file)

/-- A reload changes nothing but the authorizations: to those that are configured, where they can be
loaded. -/
theorem goesBy_reload {specs : List (AuthorizationSpec ρ)}
    (h : AuthorizationManager.GoesBy path cmdLineSpecs hub.publisherManager.authorizationManager specs)
    (file : Bytes → Except Exn (List (AuthorizationSpec ρ))) :
    AuthorizationManager.GoesBy path cmdLineSpecs
      (hub.reload file).state.publisherManager.authorizationManager
        ((configured path cmdLineSpecs file).toOption.getD specs) := by
  have hgoes := h.step (.load file)
  unfold AuthorizationManager.step at hgoes
  unfold Hub.reload PublisherManager.reloadAuthorizations
  cases hload : hub.publisherManager.authorizationManager.load file with
  | error e =>
      simp only [hload] at hgoes
      exact hgoes
  | ok manager =>
      simp only [hload] at hgoes
      exact hgoes

theorem Refines.sendUnicast (h : hub.Refines path cmdLineSpecs broker) (i : Ptr)
    (request : UnicastData) :
    (hub.step identify (.message i (.unicastData request))).state.Refines path cmdLineSpecs
      (broker.step identify path cmdLineSpecs (.message i (.unicastData request))) := by
  have hgoes := PublisherManager.keeps_onSendUnicast identify goesBy_query h.authorizations i request
    hub.interactors
  -- Without a receiver, or a message to it, nobody is entered.
  have hunchanged : ∀ {pm : PublisherManager ρ}, PublisherManager.SameBut hub.publisherManager pm →
      AuthorizationManager.GoesBy path cmdLineSpecs pm.authorizationManager broker.specs →
        Refines path cmdLineSpecs { hub with publisherManager := pm } broker :=
    fun hsame hgoes => ⟨h.clients, h.subscriptions, h.agree.sameBut hsame,
      fun topic p => by rw [hsame.topicPublishers]; exact h.publishers topic p, hgoes⟩
  show Refines path cmdLineSpecs { hub with publisherManager :=
    (hub.publisherManager.onSendUnicast identify i request hub.interactors).1 } _
  simp only [Broker.step, ← h.clients]
  cases hreceiver : hub.interactors[request.clientId]? with
  | none =>
      refine hunchanged ?_ hgoes
      unfold PublisherManager.onSendUnicast
      rw [hreceiver]
      exact .refl _
  | some receiver =>
      simp only
      have hsent := PublisherManager.onSendUnicast_sent identify hub.publisherManager i receiver
        request hreceiver
      rw [h.forwarded] at hsent
      have hnothing : ∀ {calls : List Call}, calls.filterMap (Call.sentTo receiver) = [] →
          (hub.publisherManager.onSendUnicast identify i request hub.interactors).2 = calls →
            ¬ broker.Delivered identify i receiver ⟨request.topic, request.dataPackets⟩ := by
        intro calls hnone hcalls hdelivered
        rw [hcalls, hnone, Broker.publication, if_pos hdelivered] at hsent
        cases hsent
      rcases PublisherManager.onSendUnicast_cases identify hub.publisherManager i request
        hub.interactors with hnop | ⟨receiver', -, hsame, hcalls⟩ |
        ⟨receiver', packets, hreceiver', -, -, hsame, hcalls⟩
      · rw [if_neg (hnothing rfl (congrArg Prod.snd hnop))]
        exact hunchanged (by rw [hnop]; exact .refl _) hgoes
      · rw [if_neg (hnothing rfl hcalls)]
        exact hunchanged hsame hgoes
      · obtain rfl := Option.some.inj (hreceiver.symm.trans hreceiver')
        have hdelivered :
            broker.Delivered identify i receiver ⟨request.topic, request.dataPackets⟩ := by
          by_contra hnot
          rw [hcalls, Broker.publication, if_neg hnot] at hsent
          simp [Call.sentTo] at hsent
        rw [if_pos hdelivered]
        exact h.withPublisher hsame hgoes

/-- **A step of the hub** is a step of the broker. -/
theorem Refines.step (h : hub.Refines path cmdLineSpecs broker) {step : HubStep ρ}
    (hok : broker.Orderly step) : (hub.step identify step).state.Refines path cmdLineSpecs
      (broker.step identify path cmdLineSpecs step) := by
  cases step with
  | message i message =>
      cases message with
      | subscriptionRequest request =>
          exact ⟨h.clients, h.subscribe hok, h.agree, h.publishers, h.authorizations⟩
      | unicastData request => exact h.sendUnicast i request
      | multicastData request =>
          exact h.withPublisher
            (PublisherManager.sameBut_onSendMulticast identify hub.publisherManager i request
              hub.subscriptionManager)
            (PublisherManager.keeps_onSendMulticast identify goesBy_query h.authorizations i request
              hub.subscriptionManager)
      | _ => exact ⟨h.clients, h.subscriptions, h.agree, h.publishers, h.authorizations⟩
  | connected i =>
      refine ⟨fun id => ?_, h.subscriptions, h.agree, h.publishers, h.authorizations⟩
      show (hub.interactors.insertIfNew (identify i).id i)[id]? = if _ then _ else _
      rw [OrdMap.get_insertIfNew, h.clients]
      refine if_congr (and_congr_right ?_) rfl rfl
      rintro rfl
      simp [← h.clients]
  | disconnected i =>
      refine ⟨fun id => ?_, h.subscriptions.close i, h.agree.close identify i _, fun topic p => ?_, ?_⟩
      · show (hub.interactors.erase (identify i).id)[id]? = if _ then _ else _
        rw [OrdMap.get_erase, h.clients]
      · show Index.Has (hub.publisherManager.onInteractorClosed identify i _).1.topicPublishers topic p ↔
          p ∈ broker.publishers topic \ {i}
        rw [Set.mem_sdiff, Set.mem_singleton_iff, ← h.publishers, and_comm]
        rcases PublisherManager.onInteractorClosed_cases identify hub.publisherManager i
          (hub.subscriptionManager.onInteractorClosed i).1 with ⟨hnone, hnop⟩ | ⟨-, -, hhas, -⟩
        · rw [hnop]
          refine ⟨fun hp => ⟨?_, hp⟩, And.right⟩
          rintro rfl
          obtain ⟨topics, hentry, -⟩ := (h.agree.converse topic p).mp hp
          rw [hnone] at hentry
          cases hentry
        · rw [hhas, ne_comm]
      · show AuthorizationManager.GoesBy path cmdLineSpecs
          (hub.publisherManager.onInteractorClosed identify i _).1.authorizationManager _
        rw [PublisherManager.keeps_onInteractorClosed]
        exact h.authorizations
  | reload file =>
      have hgoes := h.authorizations.step (.load file)
      simp only [Hub.step, Hub.reload, PublisherManager.reloadAuthorizations]
      unfold AuthorizationManager.step at hgoes
      cases hload : hub.publisherManager.authorizationManager.load file with
      | error e =>
          simp only [hload] at hgoes
          exact ⟨h.clients, h.subscriptions, h.agree, h.publishers, hgoes⟩
      | ok manager =>
          simp only [hload] at hgoes
          exact ⟨h.clients, h.subscriptions, ⟨h.agree.converse, h.agree.topics, h.agree.publishers⟩,
            h.publishers, hgoes⟩

/-! ## What a step delivers -/

theorem mem_filterMap_sentTo {calls : List Call} {i : Ptr} {message : Message} :
    message ∈ calls.filterMap (Call.sentTo i) ↔ .send i message ∈ calls := by
  rw [List.mem_filterMap]
  constructor
  · rintro ⟨call, hmem, hsent⟩
    cases call with
    | send j message' =>
        simp only [Call.sentTo] at hsent
        split at hsent
        · next hji =>
          rwa [← hji, ← Option.some.inj hsent]
        · cases hsent
    | _ => cases hsent
  · exact fun hmem => ⟨_, hmem, if_pos rfl⟩

/-- Each call of `send` is one message. -/
theorem count_filterMap_sentTo (calls : List Call) (i : Ptr) (message : Message) :
    (calls.filterMap (Call.sentTo i)).count message = calls.count (.send i message) := by
  induction calls with
  | nil => rfl
  | cons call calls ih =>
      rw [List.filterMap_cons, List.count_cons, ← ih]
      cases call with
      | send j message' =>
          by_cases hji : j = i
          · simp [Call.sentTo, hji, List.count_cons]
          · simp [Call.sentTo, hji]
      | _ => simp [Call.sentTo]

/-- A step that can only tell of subscriptions sends no data. -/
theorem dataTo_eq_nil {receiver : Ptr} {step : HubStep ρ}
    (h : ∀ message, Sends identify hub step receiver message → carriesData message = false) :
    hub.dataTo identify receiver step = [] := by
  refine List.filter_eq_nil_iff.mpr fun message hmem => ?_
  rw [h message ((step_calls (mem_filterMap_sentTo.mp hmem)).2 receiver message rfl)]
  simp

theorem carriesData_publication {publisher receiver : Ptr} {request : MulticastData}
    {message : Message} (h : message ∈ broker.publication identify publisher receiver request) :
    ∃ data, message = .forwardedMulticastData data := by
  unfold Broker.publication at h
  split at h
  · exact ⟨_, List.mem_singleton.mp h⟩
  · cases h

/-- **A unicast** is delivered to the client with its id. -/
theorem Refines.delivers_unicast (h : hub.Refines path cmdLineSpecs broker) (receiver i : Ptr)
    (request : UnicastData) :
    broker.Delivers identify receiver (.message i (.unicastData request))
      (hub.dataTo identify receiver (.message i (.unicastData request))) := by
  have hsame : hub.dataTo identify receiver (.message i (.unicastData request)) =
      ((hub.publisherManager.onSendUnicast identify i request hub.interactors).2.filterMap
        (Call.sentTo receiver)).filter carriesData := rfl
  show _ = _
  rw [hsame]
  split
  · next hclient =>
    rw [← h.clients] at hclient
    rw [PublisherManager.onSendUnicast_sent identify hub.publisherManager i receiver request hclient,
      h.forwarded]
    refine List.filter_eq_self.mpr fun m hm => ?_
    obtain ⟨message, hmem, rfl⟩ := List.mem_map.mp hm
    obtain ⟨data, rfl⟩ := carriesData_publication hmem
    rfl
  · next hother =>
    rw [← h.clients] at hother
    rcases PublisherManager.onSendUnicast_cases identify hub.publisherManager i request
      hub.interactors with hnop | ⟨receiver', -, -, hcalls⟩ |
      ⟨receiver', packets, hreceiver', -, -, -, hcalls⟩
    · rw [hnop]
      rfl
    · rw [hcalls]
      rfl
    · have hne : receiver' ≠ receiver := fun heq => hother (heq ▸ hreceiver')
      rw [hcalls]
      simp [Call.sentTo, hne]

/-- **A disconnect** is news to the subscribers of the topics that were the publisher's alone. -/
theorem Refines.delivers_disconnected (h : hub.Refines path cmdLineSpecs broker)
    (receiver i : Ptr) :
    broker.Delivers identify receiver (.disconnected i)
      (hub.dataTo identify receiver (.disconnected i)) := by
  have hleave := h.agree.takesLeave identify i (hub.subscriptionManager.onInteractorClosed i).1
  have hfound : ∀ topic, receiver ∈
      (hub.subscriptionManager.onInteractorClosed i).1.findSubscribers topic ↔
        i ≠ receiver ∧ 0 < broker.subscriptions receiver topic := by
    intro topic
    refine ((h.subscriptions.close i).counts receiver topic).1.trans ?_
    rw [Ledger.apply_dropAll]
    by_cases hi : i = receiver <;> simp [hi]
  have hsole : ∀ topic, hub.publisherManager.SolePublisher topic i ↔
      broker.publishers topic = {i} := by
    intro topic
    rw [Set.ext_iff]
    exact forall_congr' fun p => by rw [h.publishers]; rfl
  -- What is sent about the subscriptions of the client is not data.
  have hdata : hub.dataTo identify receiver (.disconnected i) =
      ((hub.publisherManager.onInteractorClosed identify i
        (hub.subscriptionManager.onInteractorClosed i).1).2.filterMap
          (Call.sentTo receiver)).filter carriesData := by
    have hnotices : (((hub.subscriptionManager.onInteractorClosed i).2.flatMap
        (hub.notificationManager.notify identify)).filterMap
          (Call.sentTo receiver)).filter carriesData = [] := by
      refine List.filter_eq_nil_iff.mpr fun message hmem => ?_
      obtain ⟨notice, -, hcall⟩ := List.mem_flatMap.mp (mem_filterMap_sentTo.mp hmem)
      rw [(NotificationManager.notify_calls hcall).2 receiver message rfl]
      simp [carriesData, subscriptionNotice]
    unfold dataTo Hub.step onDisconnected
    simp only [Outcome.emit_events, List.filterMap_append, List.filter_append, hnotices]
    exact List.append_nil _
  have hmem : ∀ message, message ∈ hub.dataTo identify receiver (.disconnected i) ↔
      ∃ topic, broker.publishers topic = {i} ∧ i ≠ receiver ∧
        0 < broker.subscriptions receiver topic ∧
          message = PublisherManager.farewell identify i topic := by
    intro message
    rw [hdata, List.mem_filter, mem_filterMap_sentTo]
    constructor
    · rintro ⟨hsent, -⟩
      obtain ⟨topic, halone, hin, rfl⟩ := hleave.noOther receiver message hsent
      exact ⟨topic, (hsole topic).mp halone, ((hfound topic).mp hin).1, ((hfound topic).mp hin).2,
        rfl⟩
    · rintro ⟨topic, halone, hne, hpos, rfl⟩
      have honce := hleave.once topic receiver ((hsole topic).mpr halone)
        ((hfound topic).mpr ⟨hne, hpos⟩)
      exact ⟨List.count_pos_iff.mp (by omega), rfl⟩
  refine ⟨List.nodup_iff_count_le_one.mpr fun message => ?_, hmem⟩
  by_cases hin : message ∈ hub.dataTo identify receiver (.disconnected i)
  · obtain ⟨topic, halone, hne, hpos, rfl⟩ := (hmem message).mp hin
    have honce := hleave.once topic receiver ((hsole topic).mpr halone)
      ((hfound topic).mpr ⟨hne, hpos⟩)
    rw [hdata, List.count_filter rfl, count_filterMap_sentTo, honce]
  · rw [List.count_eq_zero_of_not_mem hin]
    exact Nat.zero_le 1

theorem Refines.delivers (h : hub.Refines path cmdLineSpecs broker) (receiver : Ptr)
    (step : HubStep ρ) :
    broker.Delivers identify receiver step (hub.dataTo identify receiver step) := by
  cases step with
  | message i message =>
      cases message with
      | multicastData request =>
          have hall : ∀ m ∈ (if 0 < broker.subscriptions receiver request.topic then
              broker.publication identify i receiver request else []), carriesData m = true := by
            intro m hm
            split at hm
            · obtain ⟨data, rfl⟩ := carriesData_publication hm
              rfl
            · cases hm
          show dataTo _ _ _ _ = _
          rw [← List.filter_eq_self.mpr hall]
          refine congrArg (List.filter carriesData) ?_
          rw [← h.forwarded]
          exact (PublisherManager.onSendMulticast_sent identify hub.publisherManager i receiver request
            hub.subscriptionManager).trans (if_congr (h.mem_findSubscribers receiver _) rfl rfl)
      | unicastData request => exact h.delivers_unicast receiver i request
      | subscriptionRequest request =>
          refine dataTo_eq_nil fun message hsends => ?_
          cases hsends
          rfl
      | notificationRequest request =>
          refine dataTo_eq_nil fun message hsends => ?_
          cases hsends
          rfl
      | _ => exact dataTo_eq_nil fun message hsends => by cases hsends
  | connected i => exact dataTo_eq_nil fun message hsends => by cases hsends
  | disconnected i => exact h.delivers_disconnected receiver i
  | reload file => exact dataTo_eq_nil fun message hsends => by cases hsends

/-! ## Runs -/

/-- **The hub refines the broker.** In every run whose unsubscriptions are in order, each step sends each
client exactly the data that the broker delivers to it. -/
theorem data_eq_delivers (identify : Ptr → Identity) (path : Option Bytes)
    (cmdLineSpecs : List (AuthorizationSpec ρ)) (steps : List (HubStep ρ))
    (hok : Run.Meets (Broker.step identify path cmdLineSpecs) Broker.Orderly .new steps) :
    ∀ pre step, pre ++ [step] <+: steps → ∀ receiver,
      (pre.foldl (Broker.step identify path cmdLineSpecs) .new).Delivers identify receiver step
        (((new (.new path cmdLineSpecs)).after identify pre).dataTo identify receiver step) := by
  intro pre step hpre receiver
  have hrefines := Run.prefix_induction steps
    (motive := fun pre => ((new (.new path cmdLineSpecs)).after identify pre).Refines path
      cmdLineSpecs (pre.foldl (Broker.step identify path cmdLineSpecs) .new))
    (refines_new path cmdLineSpecs) (fun pre step hsnoc ih => by
      rw [after_append, List.foldl_append]
      exact ih.step (hok pre step hsnoc))
  exact (hrefines pre ((List.prefix_append pre [step]).trans hpre)).delivers receiver step

/-- Client 2 subscribes, client 1 publishes and leaves, and client 2 gives up its subscription. -/
def publishing : List (HubStep PlainRegex) :=
  [.reload fun _ => .ok [], .connected 1, .connected 2,
    .message 2 (.subscriptionRequest ⟨ascii "A", true⟩),
    .message 1 (.multicastData ⟨ascii "A", [⟨0, ascii "text", [1]⟩]⟩), .disconnected 1,
    .message 2 (.subscriptionRequest ⟨ascii "A", false⟩)]

theorem delivers_publishing :
    ((publishing.take 5).foldl (Broker.step numbered none []) .new).Delivers numbered 2 (.disconnected 1)
      (((new (.new none [])).after numbered (publishing.take 5)).dataTo numbered 2 (.disconnected 1)) := by
  refine data_eq_delivers numbered none [] publishing ?_ _ _ ⟨[publishing.getLast (by decide)], rfl⟩ 2
  simp only [publishing, Run.meets_cons]
  refine ⟨trivial, trivial, trivial, (by decide : 0 + 1 < 2 ^ 31), trivial, trivial,
    .inr ⟨by decide, fun j hj => ?_⟩, Run.meets_nil _ _ _⟩
  show (if 1 = j then 0 else if 2 = j ∧ ascii "A" = ascii "A" then 0 + 1 else 0) = 0
  rw [if_neg fun heq : 2 = j ∧ _ => hj heq.1, ite_self]

end Hub

end SquawkBus.Server
