import SquawkBus.Server.Distributor

/-!
# What serving a connection can touch

The methods of an interactor act on the whole server, but they leave most of it alone: the other
interactors, whether the other handlers are open, and the hub's clients. `Served` says what is the
same after the connection `fd` has been served, and `Serving` which events there can be; one
lemma for each function of the call chain, from `send` up to `on_read`, establishes both.
-/

namespace SquawkBus.Server

open SquawkBus.Io SquawkBus.Messages SquawkBus.Serialization

variable {ρ : Type} [RegexEngine ρ]

namespace ServerState

/-! ## Parts of the server -/

/-- Whether the handler registered for a descriptor is open; `none` where none is registered. -/
def isOpenAt (server : ServerState ρ) (fd : Fd) : Option Bool :=
  server.handlers[fd]?.map Handler.isOpen

/-- The server with an interactor entered for a descriptor. -/
abbrev withInteractor (server : ServerState ρ) (fd : Fd) (interactor : Interactor) :
    ServerState ρ :=
  { server with interactors := server.interactors.insert fd interactor }

/-- The server with a handler registered for a descriptor. -/
abbrev withHandler (server : ServerState ρ) (fd : Fd) (handler : Handler) : ServerState ρ :=
  { server with handlers := server.handlers.insert fd handler }

/-! ## The poller -/

theorem isOpenAt_withHandler (server : ServerState ρ) (fd fd' : Fd) (handler : Handler) :
    (server.withHandler fd handler).isOpenAt fd' =
      if fd = fd' then some handler.isOpen else server.isOpenAt fd' := by
  unfold isOpenAt
  rw [OrdMap.get_insert]
  split <;> rfl

/-- Where a handler is replaced by one that is open only if it was, nothing is opened. -/
theorem isOpenAt_of_withHandler {server : ServerState ρ} {fd fd' : Fd} {handler handler' : Handler}
    (h : server.handlers[fd]? = some handler) (hopen : handler'.isOpen = true → handler.isOpen = true)
    (hfd' : (server.withHandler fd handler').isOpenAt fd' = some true) :
    server.isOpenAt fd' = some true := by
  rw [isOpenAt_withHandler] at hfd'
  split at hfd'
  · next hfd =>
    rw [← hfd, isOpenAt, h]
    exact congrArg some (hopen (Option.some.inj hfd'))
  · exact hfd'

theorem write_cases (server : ServerState ρ) (fd : Fd) (buf : Bytes) :
    server.write fd buf = server ∨ ∃ handler, server.handlers[fd]? = some handler ∧
      server.write fd buf = server.withHandler fd (handler.enqueue buf) := by
  unfold write
  cases h : server.handlers[fd]? with
  | none => exact .inl rfl
  | some handler => exact .inr ⟨handler, rfl, rfl⟩

theorem close_cases (server : ServerState ρ) (fd : Fd) :
    (server.handlers[fd]? = none ∧ server.close fd = server) ∨
      ∃ handler, server.handlers[fd]? = some handler ∧
        server.close fd = server.withHandler fd handler.close := by
  unfold close
  cases h : server.handlers[fd]? with
  | none => exact .inl ⟨rfl, rfl⟩
  | some handler => exact .inr ⟨handler, rfl, rfl⟩

/-- A write opens and closes nothing. -/
theorem isOpenAt_write (server : ServerState ρ) (fd fd' : Fd) (buf : Bytes) :
    (server.write fd buf).isOpenAt fd' = server.isOpenAt fd' := by
  rcases server.write_cases fd buf with heq | ⟨handler, hhandler, heq⟩
  · rw [heq]
  · rw [heq, isOpenAt_withHandler]
    split
    · next hfd => rw [← hfd, isOpenAt, hhandler, Handler.isOpen_enqueue]; rfl
    · rfl

theorem isOpenAt_close_of_ne (server : ServerState ρ) {fd fd' : Fd} (h : fd' ≠ fd) :
    (server.close fd).isOpenAt fd' = server.isOpenAt fd' := by
  rcases server.close_cases fd with ⟨-, heq⟩ | ⟨handler, -, heq⟩
  · rw [heq]
  · rw [heq, isOpenAt_withHandler, if_neg (Ne.symm h)]

/-- A handler that has been closed is not open. -/
theorem isOpenAt_close (server : ServerState ρ) (fd : Fd) :
    (server.close fd).isOpenAt fd ≠ some true := by
  rcases server.close_cases fd with ⟨hnone, heq⟩ | ⟨handler, -, heq⟩
  · rw [heq, isOpenAt, hnone]
    simp
  · rw [heq, isOpenAt_withHandler, if_pos rfl, Handler.isOpen_close]
    simp

@[simp] theorem interactors_write (server : ServerState ρ) (fd : Fd) (buf : Bytes) :
    (server.write fd buf).interactors = server.interactors := by
  rcases server.write_cases fd buf with heq | ⟨handler, -, heq⟩ <;> rw [heq]

@[simp] theorem authenticationManager_write (server : ServerState ρ) (fd : Fd) (buf : Bytes) :
    (server.write fd buf).authenticationManager = server.authenticationManager := by
  rcases server.write_cases fd buf with heq | ⟨handler, -, heq⟩ <;> rw [heq]

@[simp] theorem hub_write (server : ServerState ρ) (fd : Fd) (buf : Bytes) :
    (server.write fd buf).hub = server.hub := by
  rcases server.write_cases fd buf with heq | ⟨handler, -, heq⟩ <;> rw [heq]

@[simp] theorem interactors_close (server : ServerState ρ) (fd : Fd) :
    (server.close fd).interactors = server.interactors := by
  rcases server.close_cases fd with ⟨-, heq⟩ | ⟨handler, -, heq⟩ <;> rw [heq]

@[simp] theorem authenticationManager_close (server : ServerState ρ) (fd : Fd) :
    (server.close fd).authenticationManager = server.authenticationManager := by
  rcases server.close_cases fd with ⟨-, heq⟩ | ⟨handler, -, heq⟩ <;> rw [heq]

@[simp] theorem hub_close (server : ServerState ρ) (fd : Fd) :
    (server.close fd).hub = server.hub := by
  rcases server.close_cases fd with ⟨-, heq⟩ | ⟨handler, -, heq⟩ <;> rw [heq]

/-! ## Calls of the hub -/

/-- Messages may have been queued; nothing else has changed. -/
structure Queued (server server' : ServerState ρ) : Prop where
  interactors : server'.interactors = server.interactors
  authenticationManager : server'.authenticationManager = server.authenticationManager
  hub : server'.hub = server.hub
  isOpenAt : ∀ fd, server'.isOpenAt fd = server.isOpenAt fd

theorem Queued.refl (server : ServerState ρ) : Queued server server := ⟨rfl, rfl, rfl, fun _ => rfl⟩

theorem Queued.trans {server server' server'' : ServerState ρ} (h : Queued server server')
    (h' : Queued server' server'') : Queued server server'' :=
  ⟨h'.interactors.trans h.interactors, h'.authenticationManager.trans h.authenticationManager,
    h'.hub.trans h.hub, fun fd => (h'.isOpenAt fd).trans (h.isOpenAt fd)⟩

theorem queued_write (server : ServerState ρ) (fd : Fd) (buf : Bytes) :
    Queued server (server.write fd buf) :=
  ⟨server.interactors_write fd buf, server.authenticationManager_write fd buf,
    server.hub_write fd buf, fun fd' => server.isOpenAt_write fd fd' buf⟩

variable {P : ServerEvent → Prop}

theorem ensures_send (server : ServerState ρ) (fd : Fd) (message : Message)
    (h : P (.sent fd message)) :
    (server.send fd message).Ensures (Queued server) P fun _ => True := by
  unfold send
  split
  · exact Outcome.ensures_emit (server.queued_write fd _) (by simpa using h)
  · exact Outcome.ensures_fail (.refl server) trivial

theorem ensures_perform (server : ServerState ρ) (call : Call)
    (h : ∀ i message, call = .send i message → ∀ fd, P (.sent fd message)) :
    (server.perform call).Ensures (Queued server) P fun _ => True := by
  unfold perform
  split
  · exact Outcome.ensures_fail (.refl server) trivial
  · next interactor _ =>
    cases call with
    | user _ =>
        simp only
        split
        · exact Outcome.ensures_done (.refl server)
        · exact Outcome.ensures_fail (.refl server) trivial
    | send i message => exact server.ensures_send _ message (h i message rfl _)
    | str _ | host _ | id _ => exact Outcome.ensures_done (.refl server)

/-- A message of the hub, on its way to a connection. -/
inductive Forwards (server : ServerState ρ) (step : HubStep ρ) : ServerEvent → Prop
  | sent (fd : Fd) (i : Ptr) (message : Message)
      (h : Hub.Sends server.identify server.hub step i message) :
      Forwards server step (.sent fd message)

/-- The rule for calls on the hub: what each of its calls on interactors ensures, after the hub has
changed and messages have been queued, is ensured by all of it. -/
theorem onHub_rule {F : Fault → Prop} {server : ServerState ρ} {step : HubStep ρ}
    (hcall : ∀ call ∈ (server.hub.step server.identify step).events, ∀ s : ServerState ρ,
      Queued { server with hub := (server.hub.step server.identify step).state } s →
        (s.perform call).Ensures (Queued s) P F)
    (hfault : ∀ e, (server.hub.step server.identify step).fault = some e → F (.thrown e)) :
    (server.onHub step).Ensures
      (Queued { server with hub := (server.hub.step server.identify step).state }) P F := by
  unfold onHub
  refine (Outcome.Ensures.forEach (fun call hmem s hs => ?_) (.refl _)).andThen fun _ hs => ?_
  · exact (hcall call hmem s hs).mono (fun _ h => hs.trans h) (fun _ h => h) fun _ h => h
  · split
    · exact Outcome.ensures_done hs
    · next e he => exact Outcome.ensures_fail hs (hfault e he)

/-- **A call on the hub** changes the hub, queues messages, and does nothing else. -/
theorem ensures_onHub (server : ServerState ρ) (step : HubStep ρ) :
    (server.onHub step).Ensures
      (Queued { server with hub := (server.hub.step server.identify step).state })
      (Forwards server step) fun _ => True := by
  refine onHub_rule (fun call hmem s _ => ensures_perform s call ?_) fun _ _ => trivial
  exact fun i message heq fd => .sent fd i message ((Hub.step_calls hmem).2 i message heq)

end ServerState

namespace Hub

/-- A message made by the hub; a unicast is made for a client only. -/
def IsForwarded (clients : OrdMap Bytes Ptr) : Message → Prop
  | .forwardedSubscriptionRequest _ => True
  | .forwardedMulticastData _ => True
  | .forwardedUnicastData data => data.clientId ∈ clients
  | _ => False

theorem Sends.isForwarded {identify : Ptr → Identity} {hub : Hub ρ} {step : HubStep ρ} {i : Ptr}
    {message : Message} (h : Sends identify hub step i message) :
    IsForwarded hub.interactors message := by
  cases h with
  | unicast _ _ _ hreceiver => exact OrdMap.mem_iff_get.mpr ⟨_, hreceiver⟩
  | _ => exact trivial

/-- A message does not change who the clients are. -/
theorem interactors_onMessage (identify : Ptr → Identity) (hub : Hub ρ) (i : Ptr)
    (message : Message) : (hub.onMessage identify i message).state.interactors = hub.interactors := by
  cases message <;> rfl

/-- Without a call of `on_connected` the hub stays without clients. -/
theorem interactors_step {identify : Ptr → Identity} {hub : Hub ρ} (h : hub.interactors = ∅)
    {step : HubStep ρ} (hstep : ∀ i, step ≠ .connected i) :
    (hub.step identify step).state.interactors = ∅ := by
  cases step with
  | message i message => exact (hub.interactors_onMessage identify i message).trans h
  | connected i => exact absurd rfl (hstep i)
  | disconnected i =>
      show hub.interactors.erase (identify i).id = ∅
      rw [h]
      exact Std.ExtTreeMap.erase_empty
  | reload file =>
      show (hub.reload file).state.interactors = ∅
      unfold reload
      split <;> exact h

end Hub

namespace ServerState

/-! ## Serving a connection -/

/-- What the server has in common before and after the connection `fd` is served. A closed handler
stays closed. -/
structure Served (server : ServerState ρ) (fd : Fd) (server' : ServerState ρ) : Prop where
  authenticationManager : server'.authenticationManager = server.authenticationManager
  interactors : ∀ fd', fd' ≠ fd → server'.interactors[fd']? = server.interactors[fd']?
  isOpenAt : ∀ fd', fd' ≠ fd → server'.isOpenAt fd' = server.isOpenAt fd'
  closed : server.isOpenAt fd ≠ some true → server'.isOpenAt fd ≠ some true
  clients : server'.hub.interactors = server.hub.interactors

/-- What happens while the connection `fd` is served: to itself, what its frames lead to; to any
connection, that messages are forwarded to it. -/
inductive Serving (clients : OrdMap Bytes Ptr) (fd : Fd) : ServerEvent → Prop
  | processed (message : Message) : Serving clients fd (.processed fd message)
  | rejected : Serving clients fd (.rejected fd)
  | authenticated (user : Bytes) : Serving clients fd (.authenticated fd user)
  | handled (message : Message) : Serving clients fd (.handled fd message)
  | answered : Serving clients fd (.sent fd (.authenticationResponse ⟨true⟩))
  | forwarded (fd' : Fd) (message : Message) (h : Hub.IsForwarded clients message) :
      Serving clients fd (.sent fd' message)

/-- Who can be sent what. -/
theorem Serving.of_sent {clients : OrdMap Bytes Ptr} {fd fd' : Fd} {message : Message}
    (h : Serving clients fd (.sent fd' message)) :
    (fd' = fd ∧ message = .authenticationResponse ⟨true⟩) ∨ Hub.IsForwarded clients message := by
  cases h with
  | answered => exact .inl ⟨rfl, rfl⟩
  | forwarded _ _ h => exact .inr h

theorem Served.refl (server : ServerState ρ) (fd : Fd) : Served server fd server :=
  ⟨rfl, fun _ _ => rfl, fun _ _ => rfl, id, rfl⟩

theorem Served.trans {server server' server'' : ServerState ρ} {fd : Fd}
    (h : Served server fd server') (h' : Served server' fd server'') : Served server fd server'' where
  authenticationManager := h'.authenticationManager.trans h.authenticationManager
  interactors fd' hne := (h'.interactors fd' hne).trans (h.interactors fd' hne)
  isOpenAt fd' hne := (h'.isOpenAt fd' hne).trans (h.isOpenAt fd' hne)
  closed hclosed := h'.closed (h.closed hclosed)
  clients := h'.clients.trans h.clients

theorem Queued.served {server server' : ServerState ρ} (h : Queued server server') (fd : Fd) :
    Served server fd server' where
  authenticationManager := h.authenticationManager
  interactors fd' _ := by rw [h.interactors]
  isOpenAt fd' _ := h.isOpenAt fd'
  closed hclosed := by rwa [h.isOpenAt]
  clients := by rw [h.hub]

/-! ### The calls -/

theorem served_interactor (server : ServerState ρ) (fd : Fd) (interactor : Interactor) :
    Served server fd (server.withInteractor fd interactor) where
  authenticationManager := rfl
  interactors fd' hne := by rw [OrdMap.get_insert, if_neg (Ne.symm hne)]
  isOpenAt _ _ := rfl
  closed := id
  clients := rfl

theorem served_close (server : ServerState ρ) (fd : Fd) : Served server fd (server.close fd) where
  authenticationManager := server.authenticationManager_close fd
  interactors fd' _ := by rw [interactors_close]
  isOpenAt _ hne := server.isOpenAt_close_of_ne hne
  closed _ := server.isOpenAt_close fd
  clients := by rw [hub_close]

/-- The call does no more than serve the connection `fd`. -/
abbrev Serves (server : ServerState ρ) (fd : Fd) (outcome : ServerOutcome ρ) : Prop :=
  outcome.Ensures (Served server fd) (Serving server.hub.interactors fd) fun _ => True

theorem Served.serves {server server' : ServerState ρ} {fd : Fd} {outcome : ServerOutcome ρ}
    (h : Served server fd server') (ho : Serves server' fd outcome) : Serves server fd outcome := by
  refine ho.mono (fun _ h' => h.trans h') (fun e he => ?_) fun _ h => h
  rwa [h.clients] at he

theorem serves_respond (server : ServerState ρ) (fd : Fd) :
    Serves server fd (server.send fd (.authenticationResponse ⟨true⟩)) :=
  (server.ensures_send fd _ .answered).mono (fun _ h => h.served fd) (fun _ h => h) fun _ h => h

theorem serves_onMessage (server : ServerState ρ) (fd : Fd) (i : Ptr) (message : Message) :
    Serves server fd (server.onHub (.message i message)) := by
  have hhub : Served server fd
      { server with hub := (server.hub.step server.identify (.message i message)).state } :=
    ⟨rfl, fun _ _ => rfl, fun _ _ => rfl, id, Hub.interactors_onMessage _ _ _ _⟩
  refine (server.ensures_onHub (.message i message)).mono (fun _ h => hhub.trans (h.served fd))
    (fun e he => ?_) fun _ h => h
  obtain ⟨fd', _, message, hsends⟩ := he
  exact .forwarded fd' message hsends.isForwarded

variable (md5 : Bytes → Bytes)

theorem serves_authenticate (server : ServerState ρ) (fd : Fd) (interactor : Interactor)
    (message : Message) : Serves server fd (server.authenticate md5 fd interactor message) := by
  unfold authenticate
  split
  · split
    · exact Outcome.ensures_fail (.refl server fd) trivial
    · next user _ =>
      have hset := server.served_interactor fd { interactor with user }
      cases user with
      | some user =>
          refine (Outcome.ensures_emit hset ?_).andThen fun _ hs => hs.serves (serves_respond _ fd)
          simpa using Serving.authenticated user
      | none =>
          refine (Outcome.ensures_emit (hset.trans (served_close _ fd)) ?_).andThen
            fun _ hs => hs.serves (serves_respond _ fd)
          simpa using Serving.rejected
  · refine ⟨server.served_close fd, ?_, fun _ _ => trivial⟩
    simpa using Serving.rejected

theorem serves_processMessage (server : ServerState ρ) (fd : Fd) (interactor : Interactor)
    (message : Message) : Serves server fd (server.processMessage md5 fd interactor message) := by
  unfold processMessage
  have hprocessed : ∀ e ∈ [ServerEvent.processed fd message],
      Serving server.hub.interactors fd e := by
    simpa using Serving.processed message
  refine (Outcome.ensures_emit (.refl server fd) hprocessed).andThen fun _ _ => ?_
  cases interactor.user with
  | none => exact server.serves_authenticate md5 fd interactor message
  | some _ =>
      have hhandled : ∀ e ∈ [ServerEvent.handled fd message],
          Serving server.hub.interactors fd e := by
        simpa using Serving.handled message
      exact (Outcome.ensures_emit (.refl server fd) hhandled).andThen fun _ _ =>
        server.serves_onMessage fd interactor.address message

theorem serves_receiveFrame (server : ServerState ρ) (fd : Fd) :
    Serves server fd (server.receiveFrame md5 fd) := by
  unfold receiveFrame
  split
  · exact Outcome.ensures_fail (.refl server fd) trivial
  · next interactor _ =>
    split
    · exact Outcome.ensures_fail (.refl server fd) trivial
    · next frame reader _ =>
      have htaken := server.served_interactor fd { interactor with reader }
      simp only
      split
      · exact Outcome.ensures_fail htaken trivial
      · exact htaken.serves (serves_processMessage md5 _ fd _ _)

theorem serves_receive (server : ServerState ρ) (fd : Fd) (buf : Bytes) :
    Serves server fd (server.receive md5 fd buf) := by
  unfold receive
  split
  · exact Outcome.ensures_fail (.refl server fd) trivial
  · next interactor _ =>
    split
    · exact Outcome.ensures_fail (.refl server fd) trivial
    · next reader _ =>
      refine Outcome.Ensures.forEach (fun _ _ s hs => ?_)
        (server.served_interactor fd { interactor with reader })
      exact hs.serves (s.serves_receiveFrame md5 fd)

theorem serves_receives (server : ServerState ρ) (fd : Fd) (bufs : List Bytes) :
    Serves server fd (Outcome.forEach (receive md5 fd) bufs server) :=
  Outcome.Ensures.forEach (fun buf _ s hs => hs.serves (s.serves_receive md5 fd buf))
    (.refl server fd)

/-- **What reading from a connection can touch.** -/
theorem serves_onRead (server : ServerState ρ) (fd : Fd) (bufs : List Bytes) :
    Serves server fd (server.onRead md5 fd bufs) := by
  unfold onRead
  split
  · exact Outcome.ensures_done (.refl server fd)
  · exact server.serves_receives md5 fd bufs

/-! ## The other callbacks -/

section

variable {P : ServerState ρ → Prop} {server : ServerState ρ}

/-- The authorizations are loaded again when the passwords have been. -/
theorem onInterrupt_keeps (h : P server) {configuration : Configuration ρ}
    (hreload : ∀ manager, P (onHub { server with authenticationManager := manager }
      (.reload configuration.authorizations)).state) :
    P (server.onInterrupt configuration).state := by
  unfold onInterrupt
  split
  · exact h
  · exact hreload _

/-! ### Opening and closing -/

/-- An interactor that is found after the opening of a connection is the one made for it, or was
there. -/
theorem get_of_onOpen {client : Client} {fd : Fd} {interactor : Interactor}
    (h : (server.onOpen client).state.interactors[fd]? = some interactor) :
    (client.fd = fd ∧ server.interactors[fd]? = none ∧
      interactor = ⟨client.address, client.fd, client.host, client.id, .empty, none⟩) ∨
    server.interactors[fd]? = some interactor := by
  rw [onOpen, Outcome.emit_state, OrdMap.get_insertIfNew] at h
  split at h
  · next hnew =>
    obtain ⟨rfl, hnot⟩ := hnew
    exact .inl ⟨rfl, by simpa using hnot, (Option.some.inj h).symm⟩
  · exact .inr h

/-- An interactor that is there is not replaced. -/
theorem get_onOpen_of_get {client : Client} {fd : Fd} {interactor : Interactor}
    (h : server.interactors[fd]? = some interactor) :
    (server.onOpen client).state.interactors[fd]? = some interactor := by
  rw [onOpen, Outcome.emit_state, OrdMap.get_insertIfNew, if_neg]
  · exact h
  · rintro ⟨rfl, hnot⟩
    exact hnot (OrdMap.mem_iff_get.mpr ⟨interactor, h⟩)

theorem get_onOpen_of_new {client : Client} (h : server.interactors[client.fd]? = none) (fd : Fd) :
    (server.onOpen client).state.interactors[fd]? =
      if client.fd = fd then
        some ⟨client.address, client.fd, client.host, client.id, .empty, none⟩
      else server.interactors[fd]? := by
  have hnot : client.fd ∉ server.interactors := by simpa using h
  rw [onOpen, Outcome.emit_state, OrdMap.get_insertIfNew]
  simp only [hnot, not_false_eq_true, and_true]

/-- An interactor is erased when the hub has been told of its departure. -/
theorem onClose_keeps (h : P server) {fd : Fd}
    (hhub : ∀ interactor, server.interactors[fd]? = some interactor →
      P (server.onHub (.disconnected interactor.address)).state)
    (herase : ∀ s : ServerState ρ, P s → P { s with interactors := s.interactors.erase fd }) :
    P (server.onClose fd).state := by
  unfold onClose
  split
  · exact h
  · next interactor hget => exact Outcome.andThen_keeps (hhub interactor hget) herase

/-- With the closing of a connection no interactor comes or changes. -/
theorem get_of_onClose {fd fd' : Fd} {interactor : Interactor}
    (h : (server.onClose fd).state.interactors[fd']? = some interactor) :
    server.interactors[fd']? = some interactor := by
  refine onClose_keeps (P := fun s : ServerState ρ => s.interactors[fd']? = some interactor →
    server.interactors[fd']? = some interactor) id (fun _ _ hget => ?_) (fun s hs hget => ?_) h
  · rwa [(ensures_onHub _ _).state.interactors] at hget
  · exact hs (OrdMap.get_of_erase hget).2

end

end ServerState

end SquawkBus.Server
