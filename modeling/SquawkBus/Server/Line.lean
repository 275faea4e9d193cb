import SquawkBus.Library.ByteQueue
import SquawkBus.Messages.Sending
import SquawkBus.Server.EventLoop
import SquawkBus.Server.Receive

/-!
# What goes over a connection

The server's end of a connection, from the `on_open` it began with: the bytes read from the socket, the
messages processed, the messages handed to the poller, and the bytes written to the socket. `lineAt`
keeps the `Line` along a run of the loop.

What the code owes the client is in `Outgoing`: the bytes that have gone out, and after them those that
wait in the queue of the handler, are the messages sent, one after the other. No step can break this,
whatever the other clients, the signals and the sockets do.
-/

namespace SquawkBus.Io.SocketHandler

open ByteQueue

/-! ## What a write takes -/

/-- The bytes that the loop of `write` gives to the socket. -/
def written (handler : SocketHandler) : List WriteResult → Bytes
  | [] => []
  | result :: results =>
      match handler.isOpen, handler.writeQueue, result with
      | true, (buf, offset) :: queue, .written bytesWritten =>
          (buf.drop offset).take bytesWritten ++
            if offset + bytesWritten = buf.length then
              { handler with writeQueue := queue }.written results
            else
              { handler with writeQueue := (buf, offset + bytesWritten) :: queue }.written results
      | _, _, _ => []

/-- **What is written, and then waits**, is what has waited before. -/
theorem written_append_waiting (handler : SocketHandler) (results : List WriteResult) :
    handler.written results ++ waiting (handler.writeLoop results).1.writeQueue =
      waiting handler.writeQueue := by
  induction results generalizing handler with
  | nil => rfl
  | cons result results ih =>
      obtain ⟨isOpen, writeQueue⟩ := handler
      cases isOpen with
      | false => rfl
      | true =>
          cases writeQueue with
          | nil => rfl
          | cons entry queue =>
              obtain ⟨buf, offset⟩ := entry
              cases result with
              | written bytesWritten =>
                  have hrest := take_append_waiting_advance buf offset bytesWritten queue
                  rw [advance_cons] at hrest
                  simp only [written, writeLoop]
                  rw [List.append_assoc]
                  split
                  · next hused =>
                    rw [if_pos hused] at hrest
                    rw [ih, hrest]
                  · next hused =>
                    rw [if_neg hused] at hrest
                    rw [ih, hrest]
              | blocked => rfl
              | eof => rfl
              | failed => rfl
              | sigpipe => rfl

/-- The empty write at the end takes nothing from the queue. -/
theorem writeQueue_write (handler : SocketHandler) (results : List WriteResult)
    (pending : Option WriteResult) :
    (handler.write results pending).1.writeQueue = (handler.writeLoop results).1.writeQueue := by
  unfold write
  split
  · next heq => rw [heq]
  · next heq =>
    rw [heq]
    split
    · split <;> rfl
    · rfl

/-- Reading leaves the queue as it is. -/
theorem writeQueue_read (handler : SocketHandler) (results : List ReadResult) :
    (handler.read results).1.writeQueue = handler.writeQueue := by
  induction results with
  | nil => rfl
  | cons result results ih =>
      unfold read
      split
      · cases result with
        | data buf => exact ih
        | blocked => rfl
        | eof => rfl
        | failed => rfl
        | sigpipe => rfl
      · rfl

end SquawkBus.Io.SocketHandler

namespace SquawkBus.Server

open SquawkBus.Io SquawkBus.Messages SquawkBus.Serialization

/-! ## The record -/

variable {ρ : Type} [RegexEngine ρ]

/-- What an event has to do with the connection at the descriptor: it begins when it is opened. -/
def note (fd : Fd) (line : Line) : ServerEvent → Line
  | .opened fd' => if fd' = fd then .new else line
  | .processed fd' message =>
      if fd' = fd then { line with processed := line.processed ++ [message] } else line
  | .sent fd' message =>
      if fd' = fd then { line with sent := line.sent ++ [message] } else line
  | .closed _ | .rejected _ | .authenticated _ _ | .handled _ _ => line

namespace ServerState

/-! ### Bytes read and written -/

/-- The bytes that `handle_event` reads from the socket. -/
def readFrom (server : ServerState ρ) (event : PollEvent) : Bytes :=
  match server.handlers[event.fd]? with
  | some (.socket handler) =>
      if event.readable then (handler.read event.reads).2.flatten else []
  | _ => []

/-- `handle_event` up to the write, and whether it goes on to it. -/
def handleEventRead (md5 : Bytes → Bytes) (event : PollEvent) (handler : SocketHandler)
    (server : ServerState ρ) : ServerOutcome ρ × Bool :=
  if event.readable then server.handleRead md5 event.fd handler event.reads else (.done server, true)

/-- `handle_event` from the write on. -/
def handleEventWrite (event : PollEvent) (canContinue : Bool) (server : ServerState ρ) :
    ServerOutcome ρ :=
  if canContinue && event.writable then server.handleWrite event.fd event.writes event.pending
  else .done server

/-- The bytes that `handle_write` writes to the socket. -/
def handleWriteBytes (fd : Fd) (results : List WriteResult) (server : ServerState ρ) : Bytes :=
  match server.handlers[fd]? with
  | some (.socket handler) => handler.written results
  | _ => []

/-- The bytes that `handle_event` writes to the socket. -/
def writtenTo (md5 : Bytes → Bytes) (server : ServerState ρ) (event : PollEvent) : Bytes :=
  match server.handlers[event.fd]? with
  | some (.socket handler) =>
      let (outcome, canContinue) := server.handleEventRead md5 event handler
      if outcome.fault.isNone && canContinue && event.writable then
        outcome.state.handleWriteBytes event.fd event.writes
      else []
  | _ => []

/-- The bytes that a step reads from the socket of the connection. -/
def readAt (fd : Fd) (server : ServerState ρ) : LoopStep ρ → Bytes
  | .event event => if event.fd = fd then server.readFrom event else []
  | _ => []

/-- The bytes that a step writes to the socket of the connection. -/
def writtenAt (md5 : Bytes → Bytes) (fd : Fd) (server : ServerState ρ) : LoopStep ρ → Bytes
  | .event event => if event.fd = fd then server.writtenTo md5 event else []
  | _ => []

/-- The record after a step of the loop: a read comes first, and a write last. -/
def lineStep (md5 : Bytes → Bytes) (fd : Fd) (line : Line) (server : ServerState ρ)
    (step : LoopStep ρ) : Line :=
  let line := (server.loopStep md5 step).events.foldl (note fd)
    { line with received := line.received ++ server.readAt fd step }
  { line with written := line.written ++ server.writtenAt md5 fd step }

/-- The record of the connection last opened at a descriptor in a run of the loop. -/
def lineAt (md5 : Bytes → Bytes) (fd : Fd) (steps : List (LoopStep ρ)) (server : ServerState ρ) : Line :=
  Outcome.summary (loopStep md5) (lineStep md5 fd) .new steps server

/-! ## The invariant -/

/-- **What has gone out and what waits is what has been sent**; and when the handler is gone, what has
gone out is the first of it. -/
structure Outgoing (fd : Fd) (server : ServerState ρ) (line : Line) : Prop where
  queued : ∀ handler, server.handlers[fd]? = some (.socket handler) →
    line.written ++ ByteQueue.waiting handler.writeQueue = line.sent.flatMap Message.wire
  inOrder : line.written <+: line.sent.flatMap Message.wire
  sendable : line.Sendable

variable {server server' : ServerState ρ} {fd fd' : Fd} {line : Line}

/-! ## Changes of the handlers -/

theorem Outgoing.congr (h : Outgoing fd server line) (hsame : server'.handlers = server.handlers) :
    Outgoing fd server' line := by
  refine ⟨?_, h.inOrder, h.sendable⟩
  rw [hsame]
  exact h.queued

/-- What has been read and what has come of it do not matter to what goes out. -/
theorem Outgoing.ofLine (h : Outgoing fd server line) {line' : Line} (hsent : line'.sent = line.sent)
    (hwritten : line'.written = line.written) : Outgoing fd server line' := by
  refine ⟨?_, ?_, ?_⟩
  · rw [hsent, hwritten]
    exact h.queued
  · rw [hsent, hwritten]
    exact h.inOrder
  · unfold Line.Sendable
    rw [hsent]
    exact h.sendable

theorem Outgoing.withInteractor (h : Outgoing fd server line) (fd' : Fd) (interactor : Interactor) :
    Outgoing fd (server.withInteractor fd' interactor) line :=
  h.congr rfl

/-- A handler may be replaced by one with the same queue. -/
theorem Outgoing.withHandler (h : Outgoing fd server line) {handler : Handler}
    (hqueue : ∀ after, handler = .socket after → ∃ before,
      server.handlers[fd']? = some (.socket before) ∧ after.writeQueue = before.writeQueue) :
    Outgoing fd (server.withHandler fd' handler) line := by
  refine ⟨fun after hget => ?_, h.inOrder, h.sendable⟩
  rw [OrdMap.get_insert] at hget
  split at hget
  · next hfd =>
    subst hfd
    obtain ⟨before, hbefore, hsame⟩ := hqueue after (Option.some.inj hget)
    rw [hsame]
    exact h.queued before hbefore
  · exact h.queued after hget

theorem Outgoing.close (h : Outgoing fd server line) (fd' : Fd) :
    Outgoing fd (server.close fd') line := by
  rcases server.close_cases fd' with ⟨-, heq⟩ | ⟨handler, hget, heq⟩
  · rwa [heq]
  · rw [heq]
    refine h.withHandler fun after hafter => ?_
    cases handler with
    | listener isOpen => cases hafter
    | socket before =>
        cases hafter
        exact ⟨before, hget, rfl⟩

/-- **A message handed to the poller** waits behind the others. -/
theorem Outgoing.write (h : Outgoing fd server line) (fd' : Fd) {message : Message}
    (hmessage : message.Fits ∧ message.encode.length < 2 ^ 31) :
    Outgoing fd (server.write fd' message.wire) (note fd line (.sent fd' message)) := by
  by_cases hfd : fd' = fd
  · subst hfd
    rw [note, if_pos rfl]
    have hsent : (line.sent ++ [message]).flatMap Message.wire =
        line.sent.flatMap Message.wire ++ message.wire := by
      rw [List.flatMap_append, List.flatMap_singleton]
    refine ⟨fun after hget => ?_, hsent ▸ h.inOrder.trans (List.prefix_append _ _),
      h.sendable.snoc hmessage⟩
    unfold ServerState.write at hget
    cases hhandler : server.handlers[fd']? with
    | none =>
        simp only [hhandler] at hget
        cases hget
    | some handler =>
        simp only [hhandler, OrdMap.get_insert, if_true] at hget
        cases handler with
        | listener isOpen => cases Option.some.inj hget
        | socket before =>
            obtain rfl := Handler.socket.inj (Option.some.inj hget)
            have hbefore := h.queued before hhandler
            rw [hsent, ← hbefore, List.append_assoc, ← ByteQueue.waiting_push]
  · rw [note, if_neg hfd]
    refine ⟨fun after hget => ?_, h.inOrder, h.sendable⟩
    rcases server.write_cases fd' message.wire with heq | ⟨handler, -, heq⟩
    · rw [heq] at hget
      exact h.queued after hget
    · rw [heq, OrdMap.get_insert, if_neg hfd] at hget
      exact h.queued after hget

/-! ## The calls of the server

One lemma for each function of the call chain: what it sends is put into the queue, and nothing else
is. -/

/-- The call keeps what is owed to the client at `fd`. -/
abbrev KeepsOutgoing (fd : Fd) (server : ServerState ρ) (outcome : ServerOutcome ρ) : Prop :=
  outcome.Keeps (note fd) (Outgoing fd) server

/-- What leaves the handlers alone and tells nothing of the connection. -/
theorem keepsOutgoing_emit {events : List ServerEvent} (h : server'.handlers = server.handlers)
    (hquiet : ∀ line, events.foldl (note fd) line = { line with
      processed := (events.foldl (note fd) line).processed }) :
    KeepsOutgoing fd server (.emit server' events) := by
  refine Outcome.keeps_emit fun line hline => ?_
  rw [hquiet line]
  exact (hline.congr h).ofLine rfl rfl

theorem keepsOutgoing_send (server : ServerState ρ) (fd fd' : Fd) (message : Message) :
    KeepsOutgoing fd server (server.send fd' message) := by
  unfold send
  split
  · next buf hbuf =>
    obtain ⟨hfits, hlength, rfl⟩ := Message.wire_of_serialize hbuf
    exact Outcome.keeps_emit fun line hline => hline.write fd' ⟨hfits, hlength⟩
  · exact Outcome.keeps_fail (fun _ h => h) _

theorem keepsOutgoing_perform (server : ServerState ρ) (fd : Fd) (call : Call) :
    KeepsOutgoing fd server (server.perform call) := by
  unfold perform
  split
  · exact Outcome.keeps_fail (fun _ h => h) _
  · next interactor _ =>
    cases call with
    | user _ =>
        simp only
        split
        · exact Outcome.keeps_done fun _ h => h
        · exact Outcome.keeps_fail (fun _ h => h) _
    | send _ message => exact keepsOutgoing_send server fd interactor.fd message
    | str _ | host _ | id _ => exact Outcome.keeps_done fun _ h => h

theorem keepsOutgoing_onHub (server : ServerState ρ) (fd : Fd) (step : HubStep ρ) :
    KeepsOutgoing fd server (server.onHub step) := by
  unfold onHub
  -- The hub has no handlers.
  have hhub : KeepsOutgoing fd server (.done
      { server with hub := (server.hub.step server.identify step).state }) :=
    Outcome.keeps_done fun line hline => hline.congr rfl
  refine Outcome.Keeps.andThen (fun line hline => ?_) ?_
  · exact Outcome.keeps_forEach (fun call s => keepsOutgoing_perform s fd call) _ _ line
      (hhub line hline)
  · split
    · exact Outcome.keeps_done fun _ h => h
    · exact Outcome.keeps_fail (fun _ h => h) _

/-! ### Serving a connection -/

section

variable (md5 : Bytes → Bytes)

theorem keepsOutgoing_authenticate (server : ServerState ρ) (fd fd' : Fd) (interactor : Interactor)
    (message : Message) :
    KeepsOutgoing fd server (server.authenticate md5 fd' interactor message) := by
  cases message with
  | authenticationRequest request =>
      unfold authenticate
      simp only
      split
      · exact Outcome.keeps_fail (fun _ h => h) _
      · split
        · exact Outcome.Keeps.andThen (keepsOutgoing_emit rfl fun _ => rfl)
            (keepsOutgoing_send _ fd fd' _)
        · refine Outcome.Keeps.andThen ?_ (keepsOutgoing_send _ fd fd' _)
          exact Outcome.keeps_emit fun line hline => (hline.withInteractor fd' _).close fd'
  | _ =>
      rw [authenticate_other md5 (by simp)]
      exact fun line hline => hline.close fd'

theorem keepsOutgoing_processMessage (server : ServerState ρ) (fd fd' : Fd)
    (interactor : Interactor) (message : Message) :
    KeepsOutgoing fd server (server.processMessage md5 fd' interactor message) := by
  unfold processMessage
  refine Outcome.Keeps.andThen (keepsOutgoing_emit rfl fun line => ?_) ?_
  · unfold note
    simp only [List.foldl_cons, List.foldl_nil]
    split <;> rfl
  · split
    · exact keepsOutgoing_authenticate md5 server fd fd' interactor message
    · exact Outcome.Keeps.andThen (keepsOutgoing_emit rfl fun _ => rfl)
        (keepsOutgoing_onHub server fd _)

theorem keepsOutgoing_receiveFrame (server : ServerState ρ) (fd fd' : Fd) :
    KeepsOutgoing fd server (server.receiveFrame md5 fd') := by
  unfold receiveFrame
  split
  · exact Outcome.keeps_fail (fun _ h => h) _
  · split
    · exact Outcome.keeps_fail (fun _ h => h) _
    · next interactor _ frame reader _ =>
      simp only
      split
      · exact Outcome.keeps_fail (fun _ h => h.withInteractor fd' _) _
      · intro line hline
        exact keepsOutgoing_processMessage md5 _ fd fd' _ _ line (hline.withInteractor fd' _)

theorem keepsOutgoing_receive (server : ServerState ρ) (fd fd' : Fd) (buf : Bytes) :
    KeepsOutgoing fd server (server.receive md5 fd' buf) := by
  unfold receive
  split
  · exact Outcome.keeps_fail (fun _ h => h) _
  · split
    · exact Outcome.keeps_fail (fun _ h => h) _
    · next interactor _ _ reader _ =>
      intro line hline
      exact Outcome.keeps_forEach (fun _ s => keepsOutgoing_receiveFrame md5 s fd fd') reader.frames _
        line (hline.withInteractor fd' _)

theorem keepsOutgoing_onRead (server : ServerState ρ) (fd fd' : Fd) (bufs : List Bytes) :
    KeepsOutgoing fd server (server.onRead md5 fd' bufs) := by
  unfold onRead
  split
  · exact Outcome.keeps_done fun _ h => h
  · exact Outcome.keeps_forEach (fun buf s => keepsOutgoing_receive md5 s fd fd' buf) bufs server

/-! ### The other callbacks -/

theorem keepsOutgoing_onClose (server : ServerState ρ) (fd fd' : Fd) :
    KeepsOutgoing fd server (server.onClose fd') := by
  unfold onClose
  split
  · exact Outcome.keeps_done fun _ h => h
  · exact (keepsOutgoing_onHub server fd _).andThen (keepsOutgoing_emit rfl fun _ => rfl)

theorem keepsOutgoing_handleInterrupt (server : ServerState ρ) (fd : Fd)
    (configuration : Configuration ρ) :
    KeepsOutgoing fd server (server.handleInterrupt configuration) := by
  intro line hline
  rw [handleInterrupt_state, handleInterrupt_events]
  unfold onInterrupt
  split
  · exact hline
  · next manager _ =>
    have hloaded : Outgoing fd { server with authenticationManager := manager } line := hline.congr rfl
    exact keepsOutgoing_onHub _ fd _ line hloaded

/-- **A connection begins** with nothing sent and nothing written. -/
theorem keepsOutgoing_addHandler (server : ServerState ρ) (fd : Fd) (client : Client) :
    KeepsOutgoing fd server (server.addHandler client) := by
  intro line hline
  have hbegun : Outgoing fd (server.withHandler client.fd (.socket .new))
      (note fd line (.opened client.fd)) := by
    by_cases hfd : client.fd = fd
    · rw [note, if_pos hfd]
      refine ⟨fun handler hget => ?_, List.prefix_refl _, by simp [Line.Sendable, Line.new]⟩
      rw [OrdMap.get_insert, if_pos hfd] at hget
      obtain rfl := Handler.socket.inj (Option.some.inj hget)
      rfl
    · rw [note, if_neg hfd]
      refine ⟨fun handler hget => ?_, hline.inOrder, hline.sendable⟩
      rw [OrdMap.get_insert, if_neg hfd] at hget
      exact hline.queued handler hget
  exact hbegun.congr rfl

/-! ### The poller -/

theorem keepsOutgoing_catchStdException {outcome : ServerOutcome ρ}
    (h : KeepsOutgoing fd server outcome) : KeepsOutgoing fd server (catchStdException outcome) := by
  intro line hline
  rw [catchStdException_state, catchStdException_events]
  exact h line hline

theorem keepsOutgoing_handleRead {handler : SocketHandler}
    (hget : server.handlers[fd']? = some (.socket handler)) (fd : Fd) (results : List ReadResult) :
    KeepsOutgoing fd server (server.handleRead md5 fd' handler results).1 := by
  rw [handleRead_eq]
  refine keepsOutgoing_catchStdException fun line hline => ?_
  have hread : Outgoing fd (server.withHandler fd' (.socket (handler.read results).1)) line := by
    refine hline.withHandler fun after hafter => ⟨handler, hget, ?_⟩
    rw [← Handler.socket.inj hafter]
    exact handler.writeQueue_read results
  unfold passOn
  split
  · exact hread
  · exact keepsOutgoing_onRead md5 _ fd fd' _ line hread

theorem removeClosedHandler_keepsOutgoing (server : ServerState ρ) (fd fd' : Fd) :
    KeepsOutgoing fd server (server.removeClosedHandler fd') := by
  unfold removeClosedHandler
  split
  · exact Outcome.keeps_fail (fun _ h => h) _
  · have herased : ∀ line, Outgoing fd server line →
        Outgoing fd { server with handlers := server.handlers.erase fd' } line := by
      intro line hline
      refine ⟨fun handler hget => ?_, hline.inOrder, hline.sendable⟩
      exact hline.queued handler (OrdMap.get_of_erase hget).2
    simp only
    split
    · exact Outcome.keeps_done herased
    · exact fun line hline => keepsOutgoing_onClose _ fd fd' line (herased line hline)

/-- **A write** moves bytes from the queue to the socket. -/
theorem Outgoing.handleWrite (h : Outgoing fd server line) (fd' : Fd) (results : List WriteResult)
    (pending : Option WriteResult) :
    Outgoing fd (server.handleWrite fd' results pending).state
      (if fd' = fd then
        { line with written := line.written ++ server.handleWriteBytes fd' results }
      else line) := by
  unfold ServerState.handleWrite
  split
  · next handler hget =>
    have hbytes : server.handleWriteBytes fd' results = handler.written results := by
      unfold handleWriteBytes
      rw [hget]
    -- The handler is put back even when the write has thrown.
    have hput : Outgoing fd (server.withHandler fd' (.socket (handler.write results pending).1))
        (if fd' = fd then { line with written := line.written ++ handler.written results }
        else line) := by
      by_cases hfd : fd' = fd
      · subst hfd
        rw [if_pos rfl]
        have hmoved : line.written ++ handler.written results ++
            ByteQueue.waiting (handler.write results pending).1.writeQueue =
              line.sent.flatMap Message.wire := by
          rw [List.append_assoc, SocketHandler.writeQueue_write,
            SocketHandler.written_append_waiting]
          exact h.queued handler hget
        refine ⟨fun after hafter => ?_, ⟨_, hmoved⟩, h.sendable⟩
        rw [OrdMap.get_insert, if_pos rfl] at hafter
        obtain rfl := Handler.socket.inj (Option.some.inj hafter)
        exact hmoved
      · rw [if_neg hfd]
        refine ⟨fun after hafter => ?_, h.inOrder, h.sendable⟩
        rw [OrdMap.get_insert, if_neg hfd] at hafter
        exact h.queued after hafter
    rw [hbytes]
    refine hput.congr ?_
    simp only [catchStdException_state]
    split <;> rfl
  · next hother =>
    have hbytes : server.handleWriteBytes fd' results = [] := by
      unfold handleWriteBytes
      split
      · next handler hget => exact absurd hget (hother handler)
      · rfl
    rw [hbytes, List.append_nil]
    split <;> exact h

/-! ## A step of the loop -/

theorem handleWrite_events (server : ServerState ρ) (fd : Fd) (results : List WriteResult)
    (pending : Option WriteResult) : (server.handleWrite fd results pending).events = [] := by
  unfold ServerState.handleWrite
  split
  · simp only [catchStdException_events]
    split <;> rfl
  · rfl

@[simp] theorem handleEventWrite_events (server : ServerState ρ) (event : PollEvent)
    (canContinue : Bool) : (server.handleEventWrite event canContinue).events = [] := by
  unfold handleEventWrite
  split
  · exact server.handleWrite_events _ _ _
  · rfl

theorem keepsOutgoing_handleEventRead {event : PollEvent} {handler : SocketHandler}
    (hget : server.handlers[event.fd]? = some (.socket handler)) (fd : Fd) :
    KeepsOutgoing fd server (server.handleEventRead md5 event handler).1 := by
  unfold handleEventRead
  split
  · exact keepsOutgoing_handleRead md5 hget fd event.reads
  · exact Outcome.keeps_done fun _ h => h

/-- **Serving a socket**: what the read leads to, and then the write. -/
theorem handleEvent_of_socket {event : PollEvent} {handler : SocketHandler}
    (hget : server.handlers[event.fd]? = some (.socket handler)) :
    server.handleEvent md5 event =
      (server.handleEventRead md5 event handler).1.andThen
        (handleEventWrite event (server.handleEventRead md5 event handler).2) := by
  unfold handleEvent
  rw [hget]
  rfl

theorem Outgoing.handleEvent (h : Outgoing fd server line) (event : PollEvent) :
    Outgoing fd (server.handleEvent md5 event).state
      (let noted := (server.handleEvent md5 event).events.foldl (note fd) line
      if event.fd = fd then
        { noted with written := noted.written ++ server.writtenTo md5 event }
      else noted) := by
  have hnothing : ∀ line : Line, { line with written := line.written ++ [] } = line := by
    simp
  cases hget : server.handlers[event.fd]? with
  | none =>
      unfold ServerState.handleEvent writtenTo
      rw [hget]
      simp only [hnothing, ite_self]
      exact h
  | some handler =>
      cases handler with
      | listener isOpen =>
          unfold ServerState.handleEvent writtenTo
          rw [hget]
          simp only [hnothing, ite_self]
          split
          · split
            · exact h
            · exact keepsOutgoing_addHandler server fd _ line h
          · exact h
      | socket handler =>
          have hread := keepsOutgoing_handleEventRead md5 hget fd line h
          rw [handleEvent_of_socket md5 hget]
          unfold writtenTo
          rw [hget]
          simp only
          cases hfault : (server.handleEventRead md5 event handler).1.fault with
          | some fault =>
              rw [Outcome.andThen_of_fault hfault]
              simp only [Option.isNone_some, Bool.false_and, Bool.false_eq_true, if_false, hnothing,
                ite_self]
              exact hread
          | none =>
              rw [Outcome.andThen_of_ok hfault]
              simp only [Option.isNone_none, Bool.true_and, handleEventWrite_events,
                List.append_nil]
              unfold handleEventWrite
              split
              · exact hread.handleWrite event.fd event.writes event.pending
              · rw [List.append_nil, ite_self]
                exact hread

/-- **No step of the loop** loses, repeats or mixes up what a client is sent. -/
theorem Outgoing.loopStep (h : Outgoing fd server line) (step : LoopStep ρ) :
    Outgoing fd (server.loopStep md5 step).state (lineStep md5 fd line server step) := by
  have hread : Outgoing fd server { line with received := line.received ++ server.readAt fd step } :=
    h.ofLine rfl rfl
  unfold lineStep
  cases step with
  | interrupt configuration =>
      simp only [writtenAt, List.append_nil]
      exact keepsOutgoing_handleInterrupt server fd configuration _ hread
  | event event =>
      have hserved := hread.handleEvent md5 event
      by_cases hfd : event.fd = fd
      · simp only [if_pos hfd] at hserved
        simp only [writtenAt, if_pos hfd]
        exact hserved
      · simp only [if_neg hfd] at hserved
        simp only [writtenAt, if_neg hfd, List.append_nil]
        exact hserved
  | sweep =>
      simp only [writtenAt, List.append_nil]
      exact Outcome.keeps_forEach (fun fd' s => removeClosedHandler_keepsOutgoing s fd fd') _ server
        _ hread

/-! ## Runs -/

theorem outgoing_new {handlers : OrdMap Fd Handler}
    (hlisteners : ∀ entry ∈ handlers.toList, entry.2.isListener)
    (authenticationManager : AuthenticationManager)
    (authorizationManager : AuthorizationManager ρ) (fd : Fd) :
    Outgoing fd (new handlers authenticationManager authorizationManager) .new := by
  refine ⟨fun handler hget => ?_, List.prefix_refl _, by simp [Line.Sendable, Line.new]⟩
  cases hlisteners (fd, .socket handler) (Std.ExtTreeMap.mem_toList_iff_getElem?_eq_some.mpr hget)

/-- **Nothing is lost, repeated or mixed up on the way to a client.** In every run of the loop the bytes
that have been written to a socket, and after them those that wait in the queue of its handler, are
the messages sent to the client since the connection was opened, on the wire, one after the other. -/
theorem outgoing_run (handlers : OrdMap Fd Handler)
    (hlisteners : ∀ entry ∈ handlers.toList, entry.2.isListener)
    (authenticationManager : AuthenticationManager)
    (authorizationManager : AuthorizationManager ρ) (steps : List (LoopStep ρ)) (fd : Fd) :
    Outgoing fd
      (Outcome.forEach (ServerState.loopStep md5) steps
        (new handlers authenticationManager authorizationManager)).state
      (lineAt md5 fd steps (new handlers authenticationManager authorizationManager)) :=
  Outcome.forEach_summary (fun step _ _ h => h.loopStep md5 step) steps
    (outgoing_new hlisteners authenticationManager authorizationManager fd)

end

/-- A client logs in, and the socket takes only the first three bytes of the answer. -/
theorem outgoing_of_slow_socket :
    Outgoing 4
      (Outcome.forEach (loopStep zeroDigest)
        [.event accepted, .event { received [login] with writes := [.written 3, .blocked] }] listening).state
      (lineAt zeroDigest 4
        [.event accepted, .event { received [login] with writes := [.written 3, .blocked] }] listening) :=
  outgoing_run zeroDigest (Std.ExtTreeMap.insert ∅ 3 (.listener true)) (by decide +kernel) (.new none)
    (.new none []) [.event accepted, .event { received [login] with writes := [.written 3, .blocked] }] 4

end ServerState

end SquawkBus.Server
