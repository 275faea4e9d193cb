import SquawkBus.Server.Receive
import SquawkBus.Server.Survival

/-!
# Whose session a descriptor is

The operating system may give a descriptor to a new connection as soon as the old one is closed,
which can be in the middle of a turn; the old handler and interactor stay until its end. A listener
is served before any connection, though, and so it accepts when every handler is still open: what
it is given is the descriptor of none of them, and `on_open` makes an interactor of its own.
-/

namespace SquawkBus.Server

open SquawkBus.Io SquawkBus.Messages SquawkBus.Serialization

/-! ## Connections -/

variable {ρ : Type} [RegexEngine ρ]

/-- The connection that an interactor was made for. -/
def Interactor.client (interactor : Interactor) : Client :=
  ⟨interactor.fd, interactor.host, interactor.address, interactor.id⟩

/-- The connection last accepted at a descriptor. -/
def lastAt (fd : Fd) (clients : List Client) : Option Client :=
  clients.reverse.find? fun client => client.fd = fd

theorem lastAt_append (fd : Fd) (clients : List Client) (client : Client) :
    lastAt fd (clients ++ [client]) = if client.fd = fd then some client else lastAt fd clients := by
  unfold lastAt
  rw [List.reverse_append, List.reverse_singleton, List.singleton_append, List.find?_cons]
  by_cases h : client.fd = fd <;> simp [h]

namespace ServerState

/-- Whether the handler registered for a descriptor is a listener; `none` where none is
registered. -/
def isListenerAt (server : ServerState ρ) (fd : Fd) : Option Bool :=
  server.handlers[fd]?.map Handler.isListener

theorem isListenerAt_withHandler (server : ServerState ρ) (fd fd' : Fd) (handler : Handler) :
    (server.withHandler fd handler).isListenerAt fd' =
      if fd = fd' then some handler.isListener else server.isListenerAt fd' := by
  unfold isListenerAt
  rw [OrdMap.get_insert]
  split <;> rfl

/-! ## The statement -/

/-- The connection that a step of the loop accepts. -/
def accepts (server : ServerState ρ) : LoopStep ρ → Option Client
  | .event event =>
      if server.isListenerAt event.fd = some true ∧ event.readable then event.accept.toOption
      else none
  | _ => none

/-- The connections accepted in a run, in order. -/
def acceptedClients (md5 : Bytes → Bytes) (steps : List (LoopStep ρ)) (server : ServerState ρ) :
    List Client :=
  (Outcome.rounds (loopStep md5) steps server).filterMap fun round => round.1.accepts round.2

/-- What `accept` gives is not the descriptor of an open handler, which the operating system has in
use, and is above those of the listeners. -/
def AcceptsUnused (server : ServerState ρ) (step : LoopStep ρ) : Prop :=
  ∀ client ∈ server.accepts step, server.isOpenAt client.fd ≠ some true ∧
    ∀ entry ∈ server.handlers.toList, entry.2.isListener → entry.1 < client.fd

instance (server : ServerState ρ) (step : LoopStep ρ) : Decidable (server.AcceptsUnused step) :=
  inferInstanceAs (Decidable (∀ client ∈ server.accepts step,
    server.isOpenAt client.fd ≠ some true ∧
      ∀ entry ∈ server.handlers.toList, entry.2.isListener → entry.1 < client.fd))

/-- Where a connection is accepted there is no interactor yet, and `on_open` makes one. -/
def MakesInteractor (server : ServerState ρ) (step : LoopStep ρ) : Prop :=
  ∀ client ∈ server.accepts step, server.interactors[client.fd]? = none

/-- **A new connection never inherits another's session.** When a turn of the loop begins, there are
interactors for the descriptors of the connections and for no others; each was made for the
connection last accepted at its descriptor, which is that of the handler; and the making was always
that of a new one. -/
structure OwnSessions (md5 : Bytes → Bytes) (server : ServerState ρ) (turns : List (Turn ρ)) :
    Prop where
  keys : ∀ pre, pre <+: turns → (server.eventLoop md5 pre).fault = none → ∀ fd : Fd,
    fd ∈ (server.eventLoop md5 pre).state.interactors ↔
      (server.eventLoop md5 pre).state.isListenerAt fd = some false
  own : ∀ pre, pre <+: turns → (server.eventLoop md5 pre).fault = none →
    ∀ (fd : Fd) interactor, (server.eventLoop md5 pre).state.interactors[fd]? = some interactor →
      lastAt fd (server.acceptedClients md5 (pre.flatMap Turn.steps)) = some interactor.client
  made : Outcome.Meets (loopStep md5) MakesInteractor (turns.flatMap Turn.steps) server

/-! ## What keeps the connections as they are -/

/-- The handlers and interactors are there for the same descriptors, and the interactors were made
for the same connections. -/
structure SameConnections (server server' : ServerState ρ) : Prop where
  handlers : ∀ fd, server'.isListenerAt fd = server.isListenerAt fd
  interactors : ∀ fd : Fd,
    server'.interactors[fd]?.map Interactor.client = server.interactors[fd]?.map Interactor.client

variable {server server' server'' : ServerState ρ} {fd : Fd} {interactor : Interactor}

theorem SameConnections.refl (server : ServerState ρ) : SameConnections server server :=
  ⟨fun _ => rfl, fun _ => rfl⟩

theorem SameConnections.trans (h : SameConnections server server')
    (h' : SameConnections server' server'') : SameConnections server server'' :=
  ⟨fun fd => (h'.handlers fd).trans (h.handlers fd),
    fun fd => (h'.interactors fd).trans (h.interactors fd)⟩

theorem sameConnections_withHandler {handler handler' : Handler}
    (hget : server.handlers[fd]? = some handler) (hsame : handler'.isListener = handler.isListener) :
    SameConnections server (server.withHandler fd handler') := by
  refine ⟨fun fd' => ?_, fun _ => rfl⟩
  rw [isListenerAt_withHandler]
  split
  · next heq => rw [← heq, isListenerAt, hget, hsame]; rfl
  · rfl

theorem sameConnections_withInteractor {interactor' : Interactor}
    (hget : server.interactors[fd]? = some interactor)
    (hsame : interactor'.client = interactor.client) :
    SameConnections server (server.withInteractor fd interactor') := by
  refine ⟨fun _ => rfl, fun fd' => ?_⟩
  rw [OrdMap.get_insert]
  split
  · next heq => rw [← heq, hget, Option.map_some, Option.map_some, hsame]
  · rfl

/-! ### The calls -/

theorem sameConnections_write (server : ServerState ρ) (fd : Fd) (buf : Bytes) :
    SameConnections server (server.write fd buf) := by
  rcases server.write_cases fd buf with heq | ⟨handler, hget, heq⟩ <;> rw [heq]
  · exact .refl server
  · exact sameConnections_withHandler hget (Handler.isListener_enqueue buf handler)

theorem sameConnections_close (server : ServerState ρ) (fd : Fd) :
    SameConnections server (server.close fd) := by
  rcases server.close_cases fd with ⟨-, heq⟩ | ⟨handler, hget, heq⟩ <;> rw [heq]
  · exact .refl server
  · exact sameConnections_withHandler hget (Handler.isListener_close handler)

theorem sameConnections_send (server : ServerState ρ) (fd : Fd) (message : Message) :
    SameConnections server (server.send fd message).state := by
  unfold send
  split
  · exact server.sameConnections_write fd _
  · exact .refl server

theorem sameConnections_perform (server : ServerState ρ) (call : Call) :
    SameConnections server (server.perform call).state := by
  unfold perform
  split
  · exact .refl server
  · cases call with
    | user _ =>
        simp only
        split <;> exact .refl server
    | send _ message => exact server.sameConnections_send _ message
    | str _ | host _ | id _ => exact .refl server

/-- The hub makes and removes no connection. -/
theorem sameConnections_onHub (server : ServerState ρ) (step : HubStep ρ) :
    SameConnections server (server.onHub step).state := by
  have hcalled : SameConnections server
      { server with hub := (server.hub.step server.identify step).state } :=
    ⟨fun _ => rfl, fun _ => rfl⟩
  unfold onHub
  refine Outcome.andThen_keeps (Outcome.forEach_keeps (P := SameConnections server)
    (fun s call h => h.trans (s.sameConnections_perform call)) hcalled _) fun s h => ?_
  split <;> exact h

variable (md5 : Bytes → Bytes)

theorem sameConnections_authenticate (hget : server.interactors[fd]? = some interactor)
    (message : Message) :
    SameConnections server (server.authenticate md5 fd interactor message).state :=
  authenticate_keeps md5 (.refl server) (fun _ => sameConnections_withInteractor hget rfl)
    (fun s h => h.trans (s.sameConnections_close fd))
    (fun s h => h.trans (s.sameConnections_write fd response)) message

theorem sameConnections_processMessage (hget : server.interactors[fd]? = some interactor)
    (message : Message) :
    SameConnections server (server.processMessage md5 fd interactor message).state := by
  cases huser : interactor.user with
  | none =>
      rw [processMessage_of_none md5 huser, Outcome.andThen_of_ok rfl]
      exact sameConnections_authenticate md5 hget message
  | some user =>
      rw [processMessage_of_user md5 (by simp [huser]), Outcome.andThen_of_ok rfl]
      exact server.sameConnections_onHub _

theorem sameConnections_onRead (server : ServerState ρ) (fd : Fd) (bufs : List Bytes) :
    SameConnections server (server.onRead md5 fd bufs).state :=
  onRead_keeps md5 (P := SameConnections server)
    (fun _ _ _ h hget => h.trans (sameConnections_withInteractor hget rfl))
    (fun _ _ message h hget => h.trans (sameConnections_processMessage md5 hget message))
    (.refl server) bufs

theorem sameConnections_handleRead {handler : SocketHandler}
    (hget : server.handlers[fd]? = some (.socket handler)) (results : List ReadResult) :
    SameConnections server (server.handleRead md5 fd handler results).1.state := by
  have hread : SameConnections server
      (server.withHandler fd (.socket (handler.read results).1)) :=
    sameConnections_withHandler hget rfl
  rw [handleRead_eq, catchStdException_state]
  exact passOn_keeps md5 (P := SameConnections server) hread
    (hread.trans (sameConnections_onRead md5 _ fd _))

omit md5 in
theorem sameConnections_handleWrite (server : ServerState ρ) (fd : Fd)
    (results : List WriteResult) (pending : Option WriteResult) :
    SameConnections server (server.handleWrite fd results pending).state :=
  handleWrite_keeps (.refl server) fun _ hget => sameConnections_withHandler hget rfl

/-- **The events of a connection** make and remove none. -/
theorem sameConnections_handleEvent {event : PollEvent}
    (h : server.isListenerAt event.fd ≠ some true) :
    SameConnections server (server.handleEvent md5 event).state := by
  refine handleEvent_keeps md5 (.refl server) (fun isOpen client hget _ => ?_)
    (fun handler hget => sameConnections_handleRead md5 hget event.reads)
    fun s hs => hs.trans (s.sameConnections_handleWrite event.fd event.writes event.pending)
  rw [isListenerAt, hget] at h
  exact absurd rfl h

omit md5 in
theorem sameConnections_handleInterrupt (server : ServerState ρ)
    (configuration : Configuration ρ) :
    SameConnections server (server.handleInterrupt configuration).state := by
  rw [handleInterrupt_state]
  refine onInterrupt_keeps (.refl server) fun manager => ?_
  have hloaded : SameConnections server { server with authenticationManager := manager } :=
    ⟨fun _ => rfl, fun _ => rfl⟩
  exact hloaded.trans (sameConnections_onHub _ _)

/-! ## The invariant -/

/-- The interactors are those of the connections, and the listeners are below them. -/
structure Settled (clients : List Client) (server : ServerState ρ) : Prop where
  sockets : ∀ fd : Fd, server.isListenerAt fd = some false →
    ∃ interactor, server.interactors[fd]? = some interactor ∧
      lastAt fd clients = some interactor.client
  others : ∀ fd : Fd, server.isListenerAt fd ≠ some false → server.interactors[fd]? = none
  below : ∀ fd fd', server.isListenerAt fd = some true → server.isListenerAt fd' = some false →
    fd < fd'

/-- No connection is closed. -/
def AllOpen (server : ServerState ρ) : Prop :=
  ∀ fd, server.isListenerAt fd = some false → server.isOpenAt fd = some true

variable {clients : List Client}

omit md5 in
theorem isListenerAt_eq_some {b : Bool} :
    server.isListenerAt fd = some b ↔ ∃ handler, (fd, handler) ∈ server.handlers.toList ∧
      handler.isListener = b := by
  simp only [isListenerAt, Option.map_eq_some_iff, Std.ExtTreeMap.mem_toList_iff_getElem?_eq_some]

omit md5 in
theorem settled_new {handlers : OrdMap Fd Handler}
    (hlisteners : ∀ entry ∈ handlers.toList, entry.2.isListener)
    (authenticationManager : AuthenticationManager)
    (authorizationManager : AuthorizationManager ρ) :
    Settled [] (new handlers authenticationManager authorizationManager) ∧
      AllOpen (new handlers authenticationManager authorizationManager) := by
  have hnone : ∀ fd, (new handlers authenticationManager authorizationManager).isListenerAt fd ≠
      some false := by
    intro fd h
    obtain ⟨handler, hmem, hsocket⟩ := isListenerAt_eq_some.mp h
    rw [hlisteners _ hmem] at hsocket
    cases hsocket
  exact ⟨⟨fun fd h => absurd h (hnone fd), fun fd _ => by simp [new],
    fun _ fd' _ h => absurd h (hnone fd')⟩, fun fd h => absurd h (hnone fd)⟩

omit md5 in
theorem Settled.mem_interactors (h : Settled clients server) :
    fd ∈ server.interactors ↔ server.isListenerAt fd = some false := by
  rw [OrdMap.mem_iff_get]
  constructor
  · rintro ⟨interactor, hget⟩
    by_contra hnot
    rw [h.others fd hnot] at hget
    cases hget
  · intro hsocket
    obtain ⟨interactor, hget, -⟩ := h.sockets fd hsocket
    exact ⟨interactor, hget⟩

omit md5 in
theorem Settled.last (h : Settled clients server)
    (hget : server.interactors[fd]? = some interactor) :
    lastAt fd clients = some interactor.client := by
  have hsocket := h.mem_interactors.mp (OrdMap.mem_iff_get.mpr ⟨interactor, hget⟩)
  obtain ⟨interactor', hget', hlast⟩ := h.sockets fd hsocket
  obtain rfl := Option.some.inj (hget.symm.trans hget')
  exact hlast

omit md5 in
theorem Settled.congr (h : Settled clients server) (hsame : SameConnections server server') :
    Settled clients server' := by
  refine ⟨fun fd hsocket => ?_, fun fd hnot => ?_, fun fd fd' hlistener hsocket => ?_⟩
  · rw [hsame.handlers] at hsocket
    obtain ⟨interactor, hget, hlast⟩ := h.sockets fd hsocket
    have hclient := hsame.interactors fd
    rw [hget, Option.map_some, Option.map_eq_some_iff] at hclient
    obtain ⟨interactor', hget', hclient⟩ := hclient
    exact ⟨interactor', hget', by rw [hlast, hclient]⟩
  · rw [hsame.handlers] at hnot
    have hclient := hsame.interactors fd
    rwa [h.others fd hnot, Option.map_none, Option.map_eq_none_iff] at hclient
  · rw [hsame.handlers] at hlistener hsocket
    exact h.below fd fd' hlistener hsocket

/-! ## Accepting -/

omit md5 in
/-- **What is accepted is new**: while all connections are open, none has its descriptor. -/
theorem AllOpen.unused (hopen : AllOpen server) {step : LoopStep ρ}
    (hok : server.AcceptsUnused step) {client : Client}
    (haccept : server.accepts step = some client) : server.isListenerAt client.fd = none := by
  obtain ⟨hclosed, habove⟩ := hok client haccept
  cases hkind : server.isListenerAt client.fd with
  | none => rfl
  | some isListener =>
      cases isListener with
      | false => exact absurd (hopen client.fd hkind) hclosed
      | true =>
          obtain ⟨handler, hmem, hlistener⟩ := isListenerAt_eq_some.mp hkind
          exact absurd (habove _ hmem hlistener) (lt_irrefl _)

omit md5 in
theorem Settled.addHandler (h : Settled clients server) {client : Client}
    (hunused : server.isListenerAt client.fd = none)
    (habove : ∀ fd, server.isListenerAt fd = some true → fd < client.fd) :
    Settled (clients ++ [client]) (server.addHandler client).state := by
  have hkind : ∀ fd, (server.addHandler client).state.isListenerAt fd =
      if client.fd = fd then some false else server.isListenerAt fd :=
    fun fd => server.isListenerAt_withHandler client.fd fd (.socket .new)
  have hnone : (server.withHandler client.fd (.socket .new)).interactors[client.fd]? = none :=
    h.others client.fd (by simp [hunused])
  have hget := get_onOpen_of_new hnone
  refine ⟨fun fd hsocket => ?_, fun fd hnot => ?_, fun fd fd' hlistener hsocket => ?_⟩
  · rw [hkind] at hsocket
    rw [lastAt_append]
    split at hsocket
    · next hfd => exact ⟨_, (hget fd).trans (if_pos hfd), if_pos hfd⟩
    · next hfd =>
      obtain ⟨interactor, hold, hlast⟩ := h.sockets fd hsocket
      exact ⟨interactor, get_onOpen_of_get hold, by rw [if_neg hfd, hlast]⟩
  · rw [hkind] at hnot
    split at hnot
    · exact absurd rfl hnot
    · next hfd => exact ((hget fd).trans (if_neg hfd)).trans (h.others fd hnot)
  · rw [hkind] at hlistener hsocket
    split at hlistener
    · cases hlistener
    · split at hsocket
      · next heq => exact heq ▸ habove fd hlistener
      · exact h.below fd fd' hlistener hsocket

omit md5 in
theorem AllOpen.addHandler (h : AllOpen server) (client : Client) :
    AllOpen (server.addHandler client).state := by
  intro fd hsocket
  have hkind := server.isListenerAt_withHandler client.fd fd (.socket .new)
  have hopen := server.isOpenAt_withHandler client.fd fd (.socket .new)
  show (server.withHandler client.fd (.socket .new)).isOpenAt fd = some true
  change (server.withHandler client.fd (.socket .new)).isListenerAt fd = some false at hsocket
  rw [hkind] at hsocket
  rw [hopen]
  split at hsocket
  · next hfd => rw [if_pos hfd]; rfl
  · next hfd =>
    rw [if_neg hfd]
    exact h fd hsocket

/-- A listener accepts a connection, or does nothing. -/
theorem handleEvent_of_listener {event : PollEvent}
    (h : server.isListenerAt event.fd = some true) :
    (∃ client, server.accepts (.event event) = some client ∧
      server.handleEvent md5 event = server.addHandler client) ∨
    (server.accepts (.event event) = none ∧ (server.handleEvent md5 event).state = server) := by
  have hhandler : ∃ isOpen, server.handlers[event.fd]? = some (.listener isOpen) := by
    obtain ⟨handler, hget, hlistener⟩ := Option.map_eq_some_iff.mp h
    cases handler with
    | listener isOpen => exact ⟨isOpen, hget⟩
    | socket handler => cases hlistener
  obtain ⟨isOpen, hget⟩ := hhandler
  unfold handleEvent accepts
  rw [hget]
  cases hreadable : event.readable with
  | false => exact .inr ⟨by simp [hreadable], rfl⟩
  | true =>
      cases haccept : event.accept with
      | error e => exact .inr ⟨by simp [h, haccept, Except.toOption], rfl⟩
      | ok client => exact .inl ⟨client, by simp [h, hreadable, haccept, Except.toOption], rfl⟩

/-! ## The closed handlers -/

omit md5 in
/-- The handler goes, and no other. -/
theorem isListenerAt_removeClosedHandler (server : ServerState ρ) (fd fd' : Fd) :
    (server.removeClosedHandler fd).state.isListenerAt fd' =
      if fd = fd' then none else server.isListenerAt fd' := by
  have hclose : ∀ s : ServerState ρ, (s.onClose fd).state.isListenerAt fd' = s.isListenerAt fd' :=
    fun s => onClose_keeps (P := fun s' => s'.isListenerAt fd' = s.isListenerAt fd') rfl
      (fun _ _ => (s.sameConnections_onHub _).handlers fd') fun _ hs => hs
  refine removeClosedHandler_keeps (P := fun s => s.isListenerAt fd' = _) (fun hnone => ?_) ?_
    fun s hs => (hclose s).trans hs
  · split
    · next hfd => rw [← hfd, isListenerAt, hnone]; rfl
    · rfl
  · unfold isListenerAt
    rw [OrdMap.get_erase]
    split <;> rfl

omit md5 in
theorem interactors_onClose (h : (server.onClose fd).fault = none) (fd' : Fd) :
    (server.onClose fd).state.interactors[fd']?.map Interactor.client =
      if fd = fd' then none else server.interactors[fd']?.map Interactor.client := by
  unfold onClose at h ⊢
  split at h
  · next hnone =>
    split
    · next hfd => rw [← hfd, Outcome.done_state, hnone]; rfl
    · rfl
  · next interactor hget =>
    obtain ⟨hreturns, -⟩ := Outcome.returns_andThen h
    rw [Outcome.andThen_of_ok hreturns, Outcome.emit_state, OrdMap.get_erase]
    split
    · rfl
    · exact (server.sameConnections_onHub _).interactors fd'

omit md5 in
/-- With the handler of a connection goes its interactor. -/
theorem interactors_removeClosedHandler (h : (server.removeClosedHandler fd).fault = none)
    (fd' : Fd) :
    (server.removeClosedHandler fd).state.interactors[fd']?.map Interactor.client =
      if server.isListenerAt fd = some false ∧ fd = fd' then none
      else server.interactors[fd']?.map Interactor.client := by
  unfold removeClosedHandler at h ⊢
  split at h
  · cases h
  · next handler hget =>
    have hkind : server.isListenerAt fd = some handler.isListener := by
      rw [isListenerAt, hget]
      rfl
    simp only at h ⊢
    split at h
    · next hlistener =>
      rw [if_pos hlistener, if_neg (by simp [hkind, hlistener])]
      rfl
    · next hlistener =>
      have hsocket : server.isListenerAt fd = some false := by
        rw [hkind, Bool.eq_false_iff.mpr hlistener]
      rw [if_neg hlistener, interactors_onClose h]
      simp only [hsocket, true_and]

omit md5 in
theorem Settled.removeClosedHandler (h : Settled clients server)
    (hreturns : (server.removeClosedHandler fd).fault = none) :
    Settled clients (server.removeClosedHandler fd).state := by
  have hkind := server.isListenerAt_removeClosedHandler fd
  have hclient := interactors_removeClosedHandler hreturns
  refine ⟨fun fd' hsocket => ?_, fun fd' hnot => ?_, fun fd' fd'' hlistener hsocket => ?_⟩
  · rw [hkind] at hsocket
    split at hsocket
    · cases hsocket
    · next hfd =>
      obtain ⟨interactor, hget, hlast⟩ := h.sockets fd' hsocket
      have hhere := hclient fd'
      rw [if_neg fun hcond => hfd hcond.2, hget, Option.map_some, Option.map_eq_some_iff] at hhere
      obtain ⟨interactor', hget', hsame⟩ := hhere
      exact ⟨interactor', hget', by rw [hlast, hsame]⟩
  · have hhere := hclient fd'
    rw [hkind] at hnot
    by_cases hfd : server.isListenerAt fd = some false ∧ fd = fd'
    · rwa [if_pos hfd, Option.map_eq_none_iff] at hhere
    · have hbefore : server.isListenerAt fd' ≠ some false := by
        intro hsocket
        by_cases heq : fd = fd'
        · exact hfd ⟨heq ▸ hsocket, heq⟩
        · rw [if_neg heq] at hnot
          exact hnot hsocket
      rwa [if_neg hfd, h.others fd' hbefore, Option.map_none, Option.map_eq_none_iff] at hhere
  · rw [hkind] at hlistener hsocket
    split at hlistener
    · cases hlistener
    · split at hsocket
      · cases hsocket
      · exact h.below fd' fd'' hlistener hsocket

omit md5 in
/-- **After the sweep every handler is open.** -/
theorem Settled.removeClosedHandlers (h : Settled clients server)
    (hreturns : server.removeClosedHandlers.fault = none) :
    Settled clients server.removeClosedHandlers.state ∧
      AllOpen server.removeClosedHandlers.state := by
  have hclosed : ∀ fd, server.isListenerAt fd = some false → server.isOpenAt fd ≠ some true →
      fd ∈ server.findClosedHandlerFds := by
    intro fd hsocket hnot
    obtain ⟨handler, hget, -⟩ := Option.map_eq_some_iff.mp hsocket
    rw [mem_findClosedHandlerFds, isOpenAt, hget]
    rw [isOpenAt, hget] at hnot
    simpa using hnot
  unfold ServerState.removeClosedHandlers at hreturns ⊢
  generalize server.findClosedHandlerFds = fds at hclosed hreturns
  induction fds generalizing server with
  | nil =>
      refine ⟨h, fun fd hsocket => ?_⟩
      by_contra hnot
      exact absurd (hclosed fd hsocket hnot) (by simp)
  | cons fd fds ih =>
      obtain ⟨hround, hrest⟩ := Outcome.returns_andThen hreturns
      rw [Outcome.forEach_cons, Outcome.andThen_of_ok hround]
      refine ih (h.removeClosedHandler hround) (fun fd' hsocket hnot => ?_) hrest
      rw [isListenerAt_removeClosedHandler] at hsocket
      split at hsocket
      · cases hsocket
      · next hfd =>
        rw [isOpenAt_removeClosedHandler server (Ne.symm hfd)] at hnot
        rcases List.mem_cons.mp (hclosed fd' hsocket hnot) with heq | hmem
        · exact absurd heq.symm hfd
        · exact hmem

/-! ## The steps of a turn -/

/-- Where the steps accept a connection they make its interactor, and when they have come to their
end `Q` holds of the connections accepted so far and the server. -/
structure Conducts (steps : List (LoopStep ρ)) (clients : List Client) (server : ServerState ρ)
    (Q : List Client → ServerState ρ → Prop) : Prop where
  made : Outcome.Meets (loopStep md5) MakesInteractor steps server
  after : (Outcome.forEach (loopStep md5) steps server).fault = none →
    Q (clients ++ server.acceptedClients md5 steps)
      (Outcome.forEach (loopStep md5) steps server).state

variable {Q Q' : List Client → ServerState ρ → Prop}

theorem conducts_nil (h : Q clients server) : Conducts md5 [] clients server Q := by
  refine ⟨trivial, fun _ => ?_⟩
  rw [acceptedClients, Outcome.rounds, List.filterMap_nil, List.append_nil]
  exact h

theorem conducts_singleton {step : LoopStep ρ} (hmade : server.MakesInteractor step)
    (hafter : (server.loopStep md5 step).fault = none →
      Q (clients ++ (server.accepts step).toList) (server.loopStep md5 step).state) :
    Conducts md5 [step] clients server Q := by
  have haccepted : server.acceptedClients md5 [step] = (server.accepts step).toList := by
    rw [acceptedClients, Outcome.rounds_singleton]
    cases haccept : server.accepts step <;> simp [haccept]
  refine ⟨⟨hmade, fun _ => trivial⟩, fun hreturns => ?_⟩
  rw [haccepted, Outcome.forEach_singleton]
  rw [Outcome.forEach_singleton] at hreturns
  exact hafter hreturns

/-- **The rule of sequencing.** -/
theorem Conducts.append {steps steps' : List (LoopStep ρ)} (h : Conducts md5 steps clients server Q)
    (h' : (Outcome.forEach (loopStep md5) steps server).fault = none →
      Q (clients ++ server.acceptedClients md5 steps)
        (Outcome.forEach (loopStep md5) steps server).state →
      Conducts md5 steps' (clients ++ server.acceptedClients md5 steps)
        (Outcome.forEach (loopStep md5) steps server).state Q') :
    Conducts md5 (steps ++ steps') clients server Q' := by
  refine ⟨Outcome.meets_append.mpr ⟨h.made, fun hfirst => (h' hfirst (h.after hfirst)).made⟩,
    fun hreturns => ?_⟩
  rw [Outcome.forEach_append] at hreturns ⊢
  obtain ⟨hfirst, hsecond⟩ := Outcome.returns_andThen hreturns
  have hrest := (h' hfirst (h.after hfirst)).after hsecond
  have haccepted : server.acceptedClients md5 (steps ++ steps') =
      server.acceptedClients md5 steps ++ acceptedClients md5 steps'
        (Outcome.forEach (loopStep md5) steps server).state := by
    unfold acceptedClients
    rw [Outcome.rounds_append hfirst, List.filterMap_append]
  rw [Outcome.andThen_of_ok hfirst, haccepted, ← List.append_assoc]
  exact hrest

/-- The connections are settled, and open. -/
def Ready (clients : List Client) (server : ServerState ρ) : Prop :=
  Settled clients server ∧ AllOpen server

variable {md5}

theorem Ready.interrupt (h : Ready clients server) (configuration : Configuration ρ) :
    Conducts md5 [.interrupt configuration] clients server Ready := by
  have hsame := server.sameConnections_handleInterrupt configuration
  have hnone : server.accepts (.interrupt configuration) = none := rfl
  refine conducts_singleton md5 (by simp [MakesInteractor, hnone]) fun _ => ?_
  rw [hnone, Option.toList_none, List.append_nil]
  refine ⟨h.1.congr hsame, fun fd hsocket => ?_⟩
  show (server.handleInterrupt configuration).state.isOpenAt fd = some true
  rw [isOpenAt_handleInterrupt]
  exact h.2 fd ((hsame.handlers fd).symm.trans hsocket)

/-- If an event of a listener is served while all connections are open, so is the next one that is
of a listener. -/
theorem Settled.event (h : Settled clients server) {event : PollEvent}
    (hopen : server.isListenerAt event.fd = some true → AllOpen server)
    (hok : server.AcceptsUnused (.event event)) :
    Conducts md5 [.event event] clients server fun clients' server' =>
      Settled clients' server' ∧
        ∀ fd, event.fd < fd → server'.isListenerAt fd = some true → AllOpen server' := by
  cases hkind : server.isListenerAt event.fd with
  | none =>
      refine conducts_singleton md5 (by simp [MakesInteractor, accepts, hkind]) fun hreturns => ?_
      have hnone : server.handlers[event.fd]? = none := by simpa [isListenerAt] using hkind
      have hfault : server.handleEvent md5 event = .fail server .undefined := by
        unfold handleEvent
        rw [hnone]
      rw [loopStep, hfault] at hreturns
      cases hreturns
  | some isListener =>
      cases isListener with
      | true =>
          have hready := hopen hkind
          rcases handleEvent_of_listener md5 hkind with ⟨client, haccept, heq⟩ | ⟨haccept, heq⟩
          · have hunused := hready.unused hok haccept
            have habove : ∀ fd, server.isListenerAt fd = some true → fd < client.fd := by
              intro fd hlistener
              obtain ⟨handler, hmem, his⟩ := isListenerAt_eq_some.mp hlistener
              exact (hok client haccept).2 _ hmem his
            refine conducts_singleton md5 (fun client' haccept' => ?_) fun _ => ?_
            · obtain rfl := Option.some.inj (haccept.symm.trans haccept')
              exact h.others client.fd (by simp [hunused])
            · rw [haccept, Option.toList_some, loopStep, heq]
              exact ⟨h.addHandler hunused habove, fun _ _ _ => hready.addHandler client⟩
          · refine conducts_singleton md5 (by simp [MakesInteractor, haccept]) fun _ => ?_
            rw [haccept, Option.toList_none, List.append_nil, loopStep, heq]
            exact ⟨h, fun _ _ _ => hready⟩
      | false =>
          have hnone : server.accepts (.event event) = none := by simp [accepts, hkind]
          have hsame : SameConnections server (server.handleEvent md5 event).state :=
            sameConnections_handleEvent md5 (by simp [hkind])
          refine conducts_singleton md5 (by simp [MakesInteractor, hnone]) fun _ => ?_
          rw [hnone, Option.toList_none, List.append_nil]
          refine ⟨h.congr hsame, fun fd hlt hlistener => ?_⟩
          -- A listener is never above a connection.
          have hbelow := (h.congr hsame).below fd event.fd hlistener
            ((hsame.handlers event.fd).trans hkind)
          exact absurd hlt (lt_asymm hbelow)

/-- **The events of a turn**, in ascending order: those of the listeners come first. -/
theorem Settled.events (h : Settled clients server) {events : List PollEvent}
    (hopen : ∀ event ∈ events, server.isListenerAt event.fd = some true → AllOpen server)
    (hascending : events.Pairwise fun event event' => event.fd < event'.fd)
    (hok : Outcome.Meets (loopStep md5) AcceptsUnused (events.map .event) server) :
    Conducts md5 (events.map .event) clients server Settled := by
  induction events generalizing server clients with
  | nil => exact conducts_nil md5 h
  | cons event events ih =>
      obtain ⟨hlt, hascending⟩ := List.pairwise_cons.mp hascending
      rw [List.map_cons, ← List.singleton_append] at hok ⊢
      obtain ⟨hfirst, hrest⟩ := Outcome.meets_append.mp hok
      refine (h.event (hopen event (by simp)) hfirst.1).append md5 fun hreturns hs => ?_
      exact ih hs.1 (fun event' hmem => hs.2 event'.fd (hlt event' hmem)) hascending
        (hrest hreturns)

/-- **A turn** ends as it has begun. -/
theorem Ready.turn (h : Ready clients server) {turn : Turn ρ}
    (hascending : turn.events.Pairwise fun event event' => event.fd < event'.fd)
    (hok : Outcome.Meets (loopStep md5) AcceptsUnused turn.steps server) :
    Conducts md5 turn.steps clients server Ready := by
  unfold Turn.steps at hok ⊢
  obtain ⟨hbefore, -⟩ := Outcome.meets_append.mp hok
  obtain ⟨-, hevents⟩ := Outcome.meets_append.mp hbefore
  have hsignal : Conducts md5 (turn.signal.toList.map .interrupt) clients server Ready := by
    cases turn.signal with
    | none => exact conducts_nil md5 h
    | some configuration => exact h.interrupt configuration
  refine (hsignal.append md5 fun hreturns hs => hs.1.events (fun _ _ _ => hs.2) hascending
    (hevents hreturns)).append md5 fun _ hs => ?_
  have hnone : ∀ s : ServerState ρ, s.accepts .sweep = none := fun _ => rfl
  refine conducts_singleton md5 (by simp [MakesInteractor, hnone]) fun hreturns => ?_
  rw [hnone, Option.toList_none, List.append_nil]
  exact hs.removeClosedHandlers hreturns

theorem Ready.turns (h : Ready clients server) {turns : List (Turn ρ)}
    (hascending : ∀ turn ∈ turns,
      turn.events.Pairwise fun event event' => event.fd < event'.fd)
    (hok : Outcome.Meets (loopStep md5) AcceptsUnused (turns.flatMap Turn.steps) server) :
    Conducts md5 (turns.flatMap Turn.steps) clients server Ready := by
  induction turns generalizing server clients with
  | nil => exact conducts_nil md5 h
  | cons turn turns ih =>
      rw [List.flatMap_cons] at hok ⊢
      obtain ⟨hfirst, hrest⟩ := Outcome.meets_append.mp hok
      refine (h.turn (hascending turn (by simp)) hfirst).append md5 fun hreturns hs => ?_
      exact ih hs (fun turn' hmem => hascending turn' (List.mem_cons_of_mem turn hmem))
        (hrest hreturns)

/-! ## The loop -/

/-- **A new connection never inherits another's session**, in every run of the loop that serves the
ready descriptors in ascending order, if `accept` gives unused descriptors above those of the
listeners. -/
theorem ownSessions_eventLoop (md5 : Bytes → Bytes) (handlers : OrdMap Fd Handler)
    (hlisteners : ∀ entry ∈ handlers.toList, entry.2.isListener)
    (authenticationManager : AuthenticationManager)
    (authorizationManager : AuthorizationManager ρ) (turns : List (Turn ρ))
    (hascending : ∀ turn ∈ turns, turn.events.Pairwise fun event event' => event.fd < event'.fd)
    (hok : Outcome.Meets (loopStep md5) AcceptsUnused (turns.flatMap Turn.steps)
      (new handlers authenticationManager authorizationManager)) :
    (new handlers authenticationManager authorizationManager).OwnSessions md5 turns := by
  have hready := settled_new hlisteners authenticationManager authorizationManager
  have hsettled : ∀ pre, pre <+: turns →
      ((new handlers authenticationManager authorizationManager).eventLoop md5 pre).fault = none →
        Settled (acceptedClients md5 (pre.flatMap Turn.steps)
            (new handlers authenticationManager authorizationManager))
          ((new handlers authenticationManager authorizationManager).eventLoop md5 pre).state := by
    rintro pre ⟨rest, rfl⟩ hreturns
    rw [List.flatMap_append] at hok
    rw [eventLoop, Outcome.forEach_forEach] at hreturns ⊢
    have hpre := Ready.turns hready
      (fun turn hmem => hascending turn (List.mem_append_left rest hmem))
      (Outcome.meets_append.mp hok).1
    exact (hpre.after hreturns).1
  exact ⟨fun pre hpre hreturns fd => (hsettled pre hpre hreturns).mem_interactors,
    fun pre hpre hreturns fd interactor hget => (hsettled pre hpre hreturns).last hget,
    (Ready.turns hready hascending hok).made⟩

/-! ### A descriptor that is used again -/

/-- A client authenticates and asks for a malformed pattern while another connects; it closes, and
the next one is accepted at its descriptor. -/
def reusedTurns : List (Turn PlainRegex) :=
  let listen := Message.wire (.notificationRequest ⟨ascii "(", true⟩)
  [⟨none, [accepted]⟩, ⟨none, [received [login, listen]]⟩,
    ⟨some ⟨none, fun _ => .error (.runtimeError "invalid")⟩,
      [⟨3, true, false, .ok ⟨5, ascii "host", 101, ascii "Q"⟩, [], [], none⟩,
        ⟨4, true, false, .error (.systemError "accept"), [.eof], [], none⟩]⟩,
    ⟨none, [⟨3, true, false, .ok ⟨4, ascii "host", 100, ascii "R"⟩, [], [], none⟩]⟩,
    ⟨none, [received [badLogin]]⟩]

theorem ownSessions_of_reuse : listening.OwnSessions zeroDigest reusedTurns :=
  ownSessions_eventLoop zeroDigest (Std.ExtTreeMap.insert ∅ 3 (.listener true)) (by decide +kernel)
    (.new none) (.new none []) reusedTurns (by decide) (by decide +kernel)

end ServerState

end SquawkBus.Server
