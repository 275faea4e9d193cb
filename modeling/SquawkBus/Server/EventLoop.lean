import SquawkBus.Server.Distributor

/-!
# `Poller::event_loop`

One turn of the loop: the interrupt if a signal has arrived, the events of the descriptors that
are ready, and the removal of the handlers that have been closed. `handle_read` and `handle_write`
are `noexcept` with a handler for `std::exception`; the listener's `read` and `on_close` stand
outside any handler. What the operating system answers comes with the events; `::poll` itself
succeeds.
-/

namespace SquawkBus.Server

open SquawkBus.Io SquawkBus.Messages SquawkBus.Serialization

/-! ## Events and turns -/

variable {ρ : Type} [RegexEngine ρ]

/-- A descriptor with events (`POLLIN`, `POLLOUT`), and what the calls that serve it end with:
`accept` and the making of the new handler on a listener, the stream on a socket. -/
structure PollEvent where
  fd : Fd
  readable : Bool
  writable : Bool
  accept : Except Exn Client
  reads : List ReadResult
  writes : List WriteResult
  pending : Option WriteResult

/-- The steps of the loop. -/
inductive LoopStep (ρ : Type) [RegexEngine ρ] where
  | interrupt (configuration : Configuration ρ)
  | event (event : PollEvent)
  | sweep

/-- A turn of the loop. -/
structure Turn (ρ : Type) [RegexEngine ρ] where
  signal : Option (Configuration ρ)
  events : List PollEvent

/-- The steps of a turn, in order. -/
def Turn.steps (turn : Turn ρ) : List (LoopStep ρ) :=
  turn.signal.toList.map .interrupt ++ turn.events.map .event ++ [.sweep]

namespace ServerState

/-! ## The poller -/

/-- `add_handler` for a connection just accepted. -/
def addHandler (client : Client) (server : ServerState ρ) : ServerOutcome ρ :=
  { server with handlers := server.handlers.insert client.fd (.socket .new) }.onOpen client

/-- The end of a `noexcept` function with a handler for `std::exception`: such an exception is
passed to `on_error`, which only logs it, and any other ends the program. -/
def catchStdException (outcome : ServerOutcome ρ) : ServerOutcome ρ :=
  match outcome.fault with
  | some (.thrown e) =>
      { outcome with fault := if e.isStdException then none else some .terminated }
  | _ => outcome

@[simp] theorem catchStdException_state (outcome : ServerOutcome ρ) :
    (catchStdException outcome).state = outcome.state := by
  unfold catchStdException
  split <;> rfl

@[simp] theorem catchStdException_events (outcome : ServerOutcome ρ) :
    (catchStdException outcome).events = outcome.events := by
  unfold catchStdException
  split <;> rfl

/-- `handle_read`, and whether it returns true. -/
def handleRead (md5 : Bytes → Bytes) (fd : Fd) (handler : SocketHandler)
    (results : List ReadResult) (server : ServerState ρ) : ServerOutcome ρ × Bool :=
  let killed := handler.killedByRead results
  let (handler, bufs) := handler.read results
  let server := { server with handlers := server.handlers.insert fd (.socket handler) }
  let outcome := if killed then .fail server .killed
    else if bufs.isEmpty then .done server else server.onRead md5 fd bufs
  (catchStdException outcome, handler.isOpen && outcome.fault.isNone)

def handleWrite (fd : Fd) (results : List WriteResult) (pending : Option WriteResult)
    (server : ServerState ρ) : ServerOutcome ρ :=
  match server.handlers[fd]? with
  | some (.socket handler) =>
      let (handler, ended) := handler.write results pending
      let server := { server with handlers := server.handlers.insert fd (.socket handler) }
      catchStdException <|
        match ended with
        | none => .done server
        | some fault => .fail server fault
  | _ => .done server

/-! ### Events -/

def handleEvent (md5 : Bytes → Bytes) (event : PollEvent) (server : ServerState ρ) :
    ServerOutcome ρ :=
  match server.handlers[event.fd]? with
  | none => .fail server .undefined
  | some (.listener _) =>
      if event.readable then
        match event.accept with
        | .error e => .fail server (.thrown e)
        | .ok client => server.addHandler client
      else .done server
  | some (.socket handler) =>
      let (outcome, canContinue) :=
        if event.readable then server.handleRead md5 event.fd handler event.reads
        else (.done server, true)
      outcome.andThen fun server =>
        if canContinue && event.writable then
          server.handleWrite event.fd event.writes event.pending
        else .done server

/-! ### Closed handlers -/

/-- `find_closed_handler_fds`. -/
def findClosedHandlerFds (server : ServerState ρ) : List Fd :=
  (server.handlers.toList.filter fun entry => !entry.2.isOpen).map (·.1)

/-- One round of the loop of `remove_closed_handlers`. -/
def removeClosedHandler (fd : Fd) (server : ServerState ρ) : ServerOutcome ρ :=
  match server.handlers[fd]? with
  | none => .fail server .undefined
  | some handler =>
      let server := { server with handlers := server.handlers.erase fd }
      if handler.isListener then .done server else server.onClose fd

def removeClosedHandlers (server : ServerState ρ) : ServerOutcome ρ :=
  Outcome.forEach removeClosedHandler server.findClosedHandlerFds server

/-- The interrupt, with the handler for every exception around it. -/
def handleInterrupt (configuration : Configuration ρ) (server : ServerState ρ) :
    ServerOutcome ρ :=
  let outcome := server.onInterrupt configuration
  match outcome.fault with
  | some (.thrown _) => { outcome with fault := none }
  | _ => outcome

/-! ### The loop -/

def loopStep (md5 : Bytes → Bytes) (step : LoopStep ρ) (server : ServerState ρ) :
    ServerOutcome ρ :=
  match step with
  | .interrupt configuration => server.handleInterrupt configuration
  | .event event => server.handleEvent md5 event
  | .sweep => server.removeClosedHandlers

/-- `event_loop`, for the turns given. -/
def eventLoop (md5 : Bytes → Bytes) (turns : List (Turn ρ)) (server : ServerState ρ) :
    ServerOutcome ρ :=
  Outcome.forEach (fun turn => Outcome.forEach (loopStep md5) turn.steps) turns server

/-! ## The functions of the loop -/

@[simp] theorem handleInterrupt_state (configuration : Configuration ρ) (server : ServerState ρ) :
    (server.handleInterrupt configuration).state = (server.onInterrupt configuration).state := by
  unfold handleInterrupt
  simp only
  split <;> rfl

@[simp] theorem handleInterrupt_events (configuration : Configuration ρ) (server : ServerState ρ) :
    (server.handleInterrupt configuration).events = (server.onInterrupt configuration).events := by
  unfold handleInterrupt
  simp only
  split <;> rfl

section

variable (md5 : Bytes → Bytes) {server : ServerState ρ} {fd : Fd}

/-- What has been read, as `on_read` is given it unless a signal comes first. -/
def passOn (fd : Fd) (killed : Bool) (bufs : List Bytes) (server : ServerState ρ) : ServerOutcome ρ :=
  if killed then .fail server .killed else server.onRead md5 fd bufs

theorem passOn_of_lives (server : ServerState ρ) (fd : Fd) (bufs : List Bytes) :
    server.passOn md5 fd false bufs = server.onRead md5 fd bufs := rfl

/-- `on_read` has nothing to do where nothing has been read. -/
theorem handleRead_eq (server : ServerState ρ) (fd : Fd) (handler : SocketHandler)
    (results : List ReadResult) :
    (server.handleRead md5 fd handler results).1 = catchStdException
      (passOn md5 fd (handler.killedByRead results) (handler.read results).2
        { server with handlers :=
            server.handlers.insert fd (.socket (handler.read results).1) }) := by
  unfold handleRead passOn
  simp only
  split
  · rfl
  · split
    · next hempty =>
      rw [List.isEmpty_iff.mp hempty]
      unfold onRead
      split <;> rfl
    · rfl

variable {P : ServerState ρ → Prop}

/-- What `on_read` keeps is kept by what comes of it. -/
theorem passOn_keeps {killed : Bool} {bufs : List Bytes} (h : P server)
    (hread : P (server.onRead md5 fd bufs).state) : P (server.passOn md5 fd killed bufs).state := by
  cases killed with
  | true => exact h
  | false => exact hread

omit md5 in
theorem handleWrite_keeps {results : List WriteResult} {pending : Option WriteResult} (h : P server)
    (hwritten : ∀ handler, server.handlers[fd]? = some (.socket handler) →
      P { server with handlers :=
        server.handlers.insert fd (.socket (handler.write results pending).1) }) :
    P (server.handleWrite fd results pending).state := by
  unfold handleWrite
  split
  · next handler hget =>
    simp only [catchStdException_state]
    split <;> exact hwritten handler hget
  · exact h

/-- What the accepting, the reading and the writing keep, an event keeps. -/
theorem handleEvent_keeps {event : PollEvent} (h : P server)
    (haccept : ∀ isOpen client, server.handlers[event.fd]? = some (.listener isOpen) →
      event.accept = .ok client → P (server.addHandler client).state)
    (hread : ∀ handler, server.handlers[event.fd]? = some (.socket handler) →
      P (server.handleRead md5 event.fd handler event.reads).1.state)
    (hwrite : ∀ s : ServerState ρ, P s →
      P (s.handleWrite event.fd event.writes event.pending).state) :
    P (server.handleEvent md5 event).state := by
  unfold handleEvent
  split
  · exact h
  · next isOpen hget =>
    split
    · split
      · exact h
      · next client hclient => exact haccept isOpen client hget hclient
    · exact h
  · next handler hget =>
    have hfirst : P (if event.readable then server.handleRead md5 event.fd handler event.reads
      else (.done server, true)).1.state := by
      split
      · exact hread handler hget
      · exact h
    refine Outcome.andThen_keeps hfirst fun s hs => ?_
    split
    · exact hwrite s hs
    · exact hs

theorem removeClosedHandler_keeps (h : server.handlers[fd]? = none → P server)
    (herased : P { server with handlers := server.handlers.erase fd })
    (hclose : ∀ s : ServerState ρ, P s → P (s.onClose fd).state) :
    P (server.removeClosedHandler fd).state := by
  unfold removeClosedHandler
  split
  · next hnone => exact h hnone
  · simp only
    split
    · exact herased
    · exact hclose _ herased

end

/-! ## What to run the loop with -/

/-- A request that is refused, whatever the passwords. -/
def badLogin : Bytes := Message.wire (.authenticationRequest ⟨ascii "x", []⟩)

/-- A server that listens at descriptor 3, and has no password file. -/
def listening : ServerState PlainRegex :=
  new (Std.ExtTreeMap.insert ∅ 3 (.listener true)) (.new none) (.new none [])

/-- A client connects at descriptor 4. -/
def accepted : PollEvent :=
  ⟨3, true, false, .ok ⟨4, ascii "host", 100, ascii "P"⟩, [], [], none⟩

/-- The chunks are read from descriptor 4. -/
def received (chunks : List Bytes) : PollEvent :=
  ⟨4, true, true, .error (.systemError "accept"), chunks.map .data, [], none⟩

end ServerState

end SquawkBus.Server
