import SquawkBus.Server.Footprint

/-!
# Unicast data does not arrive

A unicast is addressed to the id of a client, and the hub looks the id up among its clients. It is
`on_connected` that enters a client there; no callback of the distributor calls it, so the hub of a
running server has no clients and every unicast is dropped.
-/

namespace SquawkBus.Server

open SquawkBus.Io SquawkBus.Messages SquawkBus.Serialization

variable {ρ : Type} [RegexEngine ρ]

namespace ServerState

/-! ## What is due -/

/-- The packets of the request that carry an entitlement which the publisher and the receiver
have both been granted on the topic. -/
def authorizedPackets (server : ServerState ρ) (publisher receiver : Interactor)
    (request : UnicastData) : List DataPacket :=
  let authorizations := server.hub.publisherManager.authorizationManager
  getAuthorizedData request.dataPackets
    (authorizations.inForce (publisher.user.getD []) request.topic Role.publisher ∩
      authorizations.inForce (receiver.user.getD []) request.topic Role.subscriber)

/-- Both clients are connected and authenticated, and the request is addressed to the receiver,
with packets for it. -/
structure UnicastDue (server : ServerState ρ) (publisher receiver : Interactor)
    (request : UnicastData) : Prop where
  publisher_connected : server.interactors[publisher.fd]? = some publisher
  receiver_connected : server.interactors[receiver.fd]? = some receiver
  publisher_authenticated : publisher.user.isSome
  receiver_authenticated : receiver.user.isSome
  addressed : request.clientId = receiver.id
  packets : server.authorizedPackets publisher receiver request ≠ []

/-- What is read from the connection is the one message. -/
def Carries (interactor : Interactor) (bufs : List Bytes) (message : Message) : Prop :=
  (interactor.reader.framesOf bufs).map Message.ofFrame = [some message]

instance (interactor : Interactor) (bufs : List Bytes) (message : Message) :
    Decidable (Carries interactor bufs message) := inferInstanceAs (Decidable (_ = _))

/-- All that is sent is the packets due, to the receiver. -/
def Delivers (server : ServerState ρ) (publisher receiver : Interactor) (request : UnicastData)
    (events : List ServerEvent) : Prop :=
  (events.filter fun e => match e with | .sent _ _ => true | _ => false) =
    [.sent receiver.fd (.forwardedUnicastData ⟨publisher.user.getD [], publisher.host,
      request.clientId, request.topic, server.authorizedPackets publisher receiver request⟩)]

instance (server : ServerState ρ) (publisher receiver : Interactor) (request : UnicastData)
    (events : List ServerEvent) :
    Decidable (server.Delivers publisher receiver request events) :=
  inferInstanceAs (Decidable (_ = _))

/-! ## The hub of a running server -/

variable (md5 : Bytes → Bytes)

/-- A callback leaves a hub without clients without clients. -/
theorem interactors_callback {server : ServerState ρ} (h : server.hub.interactors = ∅)
    (callback : Callback ρ) : (server.callback md5 callback).state.hub.interactors = ∅ := by
  have honHub : ∀ (server : ServerState ρ) (step : HubStep ρ), server.hub.interactors = ∅ →
      (∀ i, step ≠ .connected i) → (server.onHub step).state.hub.interactors = ∅ := by
    intro server step h hstep
    rw [(server.ensures_onHub step).state.hub]
    exact Hub.interactors_step h hstep
  cases callback with
  | interrupt configuration =>
      exact onInterrupt_keeps (P := fun s : ServerState ρ => s.hub.interactors = ∅) h
        fun manager => honHub _ _ h (by simp)
  | opened client => exact h
  | read fd bufs => exact (server.serves_onRead md5 fd bufs).state.clients.trans h
  | closed fd =>
      exact onClose_keeps (P := fun s : ServerState ρ => s.hub.interactors = ∅) h
        (fun _ _ => honHub _ _ h (by simp)) fun _ hs => hs

theorem interactors_after (handlers : OrdMap Fd Handler)
    (authenticationManager : AuthenticationManager)
    (authorizationManager : AuthorizationManager ρ) (callbacks : List (Callback ρ)) :
    ((new handlers authenticationManager authorizationManager).after md5
      callbacks).hub.interactors = ∅ := by
  induction callbacks using List.reverseRecOn with
  | nil => rfl
  | append_singleton callbacks callback ih =>
      rw [after, Outcome.runState_append]
      exact interactors_callback md5 ih callback

/-- **No unicast is delivered**: in no state that the callbacks of the distributor lead to does the
receiver get the packets that are due to it. -/
theorem unicast_not_delivered (handlers : OrdMap Fd Handler)
    (authenticationManager : AuthenticationManager)
    (authorizationManager : AuthorizationManager ρ) (callbacks : List (Callback ρ))
    (publisher receiver : Interactor) (request : UnicastData) (bufs : List Bytes) :
    let server := (new handlers authenticationManager authorizationManager).after md5 callbacks
    server.UnicastDue publisher receiver request →
      Carries publisher bufs (.unicastData request) →
        ¬ server.Delivers publisher receiver request (server.onRead md5 publisher.fd bufs).events := by
  intro server _ _ hdelivers
  have hclients : server.hub.interactors = ∅ := interactors_after md5 _ _ _ callbacks
  -- The message would be one of the events of the read.
  have hsent : ServerEvent.sent receiver.fd (.forwardedUnicastData ⟨publisher.user.getD [],
      publisher.host, request.clientId, request.topic,
      server.authorizedPackets publisher receiver request⟩) ∈
      (server.onRead md5 publisher.fd bufs).events := by
    refine List.mem_of_mem_filter (p := fun e => match e with | .sent _ _ => true | _ => false) ?_
    rw [hdelivers]
    exact List.mem_singleton.mpr rfl
  rcases ((server.serves_onRead md5 publisher.fd bufs).events _ hsent).of_sent with
    ⟨-, hresponse⟩ | hforwarded
  · cases hresponse
  · rw [hclients] at hforwarded
    exact Std.ExtTreeMap.not_mem_empty hforwarded

/-! ## Two clients -/

/-- A client that has sent `login` and nothing else. -/
def loggedIn (address : Ptr) (fd : Fd) (id : Bytes) : Interactor :=
  ⟨address, fd, ascii "host", id, ⟨none, ⟨[login], 17, by decide⟩, []⟩, some (ascii "nobody")⟩

/-- The configuration is loaded, and two clients connect and authenticate. -/
def twoClients : List (Callback PlainRegex) :=
  [.interrupt ⟨none, fun _ => .ok []⟩, .opened ⟨4, ascii "host", 100, ascii "P"⟩,
    .opened ⟨5, ascii "host", 101, ascii "R"⟩, .read 4 [login], .read 5 [login]]

def withTwoClients : ServerState PlainRegex :=
  (new ∅ (.new none) (.new none [])).after zeroDigest twoClients

/-- A request for the second client, with a packet that both may see and one that neither may. -/
def greeting : UnicastData := ⟨ascii "R", ascii "A", [⟨0, [], [72, 105]⟩, ⟨7, [], []⟩]⟩

theorem unicastDue_greeting :
    withTwoClients.UnicastDue (loggedIn 100 4 (ascii "P")) (loggedIn 101 5 (ascii "R"))
      greeting where
  publisher_connected := by decide +kernel
  receiver_connected := by decide +kernel
  publisher_authenticated := rfl
  receiver_authenticated := rfl
  addressed := rfl
  packets := by decide +kernel

theorem unicast_not_delivered_greeting :
    ¬ withTwoClients.Delivers (loggedIn 100 4 (ascii "P")) (loggedIn 101 5 (ascii "R")) greeting
      (withTwoClients.onRead zeroDigest 4 [Message.wire (.unicastData greeting)]).events :=
  unicast_not_delivered zeroDigest ∅ (.new none) (.new none []) twoClients
    (loggedIn 100 4 (ascii "P")) (loggedIn 101 5 (ascii "R")) greeting
    [Message.wire (.unicastData greeting)] unicastDue_greeting (by decide +kernel)

/-- A packet is due to a client that is there, the hub is given the request, and nothing is
sent. -/
theorem greeting_dropped :
    withTwoClients.UnicastDue (loggedIn 100 4 (ascii "P")) (loggedIn 101 5 (ascii "R")) greeting ∧
      Carries (loggedIn 100 4 (ascii "P")) [Message.wire (.unicastData greeting)]
        (.unicastData greeting) ∧
      (withTwoClients.onRead zeroDigest 4 [Message.wire (.unicastData greeting)]).events =
        [.processed 4 (.unicastData greeting), .handled 4 (.unicastData greeting)] ∧
      ¬ withTwoClients.Delivers (loggedIn 100 4 (ascii "P")) (loggedIn 101 5 (ascii "R")) greeting
        (withTwoClients.onRead zeroDigest 4 [Message.wire (.unicastData greeting)]).events := by
  refine ⟨unicastDue_greeting, ?_, ?_, ?_⟩
  · decide +kernel
  · decide +kernel
  · decide +kernel

end ServerState

end SquawkBus.Server
