import SquawkBus.Basic

/-!
# Poll handlers

`TcpSocketPollHandler` and `TcpListenerPollHandler` as the poller sees them. What the stream under
a socket handler does is given from outside, one result for each `stream_.read` or
`stream_.write`; when the results run out, the stream would block.

A write to a socket whose peer has gone raises `SIGPIPE`, which the programs neither handle nor ignore:
it ends the process. OpenSSL may raise it in a read, too. The destruction of a stream is taken not to.
`::close` succeeds on an open descriptor.
-/

namespace SquawkBus.Io

/-! ## What the streams do -/

/-- A file descriptor. -/
abbrev Fd := Nat

/-- What `TcpStream::read` ends with. -/
inductive ReadResult where
  | data (buf : Bytes)
  | blocked
  /-- The socket is marked as closed. -/
  | eof
  /-- A `std::exception`. -/
  | failed
  /-- It does not end: OpenSSL has written to a peer that has gone, and the process is killed. -/
  | sigpipe
  deriving DecidableEq

/-- What `TcpStream::write` ends with. -/
inductive WriteResult where
  | written (bytesWritten : Nat)
  | blocked
  /-- The socket is marked as closed. -/
  | eof
  /-- A `std::runtime_error`, with the socket marked as closed. -/
  | failed
  /-- It does not end: the peer has gone, and the process is killed. -/
  | sigpipe
  deriving DecidableEq

/-! ## Sockets -/

/-- `TcpSocketPollHandler`. The read queue is empty between the calls of the poller, which takes
everything out after each `read`. -/
structure SocketHandler where
  isOpen : Bool
  writeQueue : List (Bytes × Nat)
  deriving DecidableEq

namespace SocketHandler

/-- The constructor, on a socket just accepted. -/
def new : SocketHandler := ⟨true, []⟩

/-- `read`, with what it puts into the read queue. -/
def read (handler : SocketHandler) : List ReadResult → SocketHandler × List Bytes
  | [] => (handler, [])
  | result :: results =>
      if handler.isOpen then
        match result with
        | .data buf =>
            let (handler, queue) := handler.read results
            (handler, buf :: queue)
        | .blocked => (handler, [])
        | .eof => ({ handler with isOpen := false }, [])
        | .failed => ({ handler with isOpen := false }, [])
        | .sigpipe => (handler, [])
      else (handler, [])

/-- Whether a signal ends the process in `read`. -/
def killedByRead (handler : SocketHandler) : List ReadResult → Bool
  | [] => false
  | result :: results =>
      handler.isOpen && match result with
        | .data _ => handler.killedByRead results
        | .sigpipe => true
        | _ => false

/-- The loop of `write`, with the exception or the signal that ends it. -/
def writeLoop (handler : SocketHandler) : List WriteResult → SocketHandler × Option Fault
  | [] => (handler, none)
  | result :: results =>
      match handler.isOpen, handler.writeQueue with
      | true, (buf, offset) :: queue =>
          match result with
          | .written bytesWritten =>
              if offset + bytesWritten = buf.length then
                { handler with writeQueue := queue }.writeLoop results
              else
                { handler with writeQueue := (buf, offset + bytesWritten) :: queue }.writeLoop
                  results
          | .blocked => (handler, none)
          | .eof => ({ handler with isOpen := false }, none)
          | .failed =>
              ({ handler with isOpen := false }, some (.thrown (.runtimeError "failed to write")))
          | .sigpipe => (handler, some .killed)
      | _, _ => (handler, none)

/-- `write`. `pending` is the result of the empty write at the end, which is made when the stream
wants to write. -/
def write (handler : SocketHandler) (results : List WriteResult) (pending : Option WriteResult) :
    SocketHandler × Option Fault :=
  match handler.writeLoop results with
  | (handler, some fault) => (handler, some fault)
  | (handler, none) =>
      if handler.isOpen then
        match pending with
        | some .eof => ({ handler with isOpen := false }, none)
        | some .failed =>
            ({ handler with isOpen := false }, some (.thrown (.runtimeError "failed to write")))
        | some .sigpipe => (handler, some .killed)
        | _ => (handler, none)
      else (handler, none)

/-! ### What stays open -/

/-- A closed handler reads nothing. -/
theorem read_of_closed {handler : SocketHandler} (h : handler.isOpen = false)
    (results : List ReadResult) : handler.read results = (handler, []) := by
  cases results with
  | nil => rfl
  | cons result results => simp [read, h]

/-- Without a signal in the results none ends the process. -/
theorem killedByRead_eq_false (handler : SocketHandler) {results : List ReadResult}
    (h : ReadResult.sigpipe ∉ results) : handler.killedByRead results = false := by
  induction results with
  | nil => rfl
  | cons result results ih =>
      obtain ⟨hne, hrest⟩ := not_or.mp (mt List.mem_cons.mpr h)
      cases result with
      | data buf =>
          show (handler.isOpen && handler.killedByRead results) = false
          rw [ih hrest, Bool.and_false]
      | sigpipe => exact absurd rfl hne
      | _ => exact Bool.and_false handler.isOpen

/-- Reading may close the handler, and never opens it. -/
theorem isOpen_of_read {handler : SocketHandler} {results : List ReadResult}
    (h : (handler.read results).1.isOpen = true) : handler.isOpen = true := by
  by_contra hclosed
  rw [read_of_closed (Bool.eq_false_iff.mpr hclosed)] at h
  exact hclosed h

theorem isOpen_of_writeLoop {handler : SocketHandler} {results : List WriteResult}
    (h : (handler.writeLoop results).1.isOpen = true) : handler.isOpen = true := by
  induction results generalizing handler with
  | nil => exact h
  | cons result results ih =>
      cases hopen : handler.isOpen with
      | true => rfl
      | false =>
          unfold writeLoop at h
          rw [hopen] at h
          simp only at h
          rw [hopen] at h
          exact h

theorem isOpen_of_write {handler : SocketHandler} {results : List WriteResult}
    {pending : Option WriteResult} (h : (handler.write results pending).1.isOpen = true) :
    handler.isOpen = true := by
  unfold write at h
  split at h
  · next heq =>
    apply isOpen_of_writeLoop
    rw [heq]
    exact h
  · next heq =>
    apply isOpen_of_writeLoop
    rw [heq]
    split at h
    · assumption
    · exact h

/-! ## How a write ends -/

/-- A signal kills the process, or an exception is thrown that the poller catches. -/
def WriteEnds (signalled : Prop) : Fault → Prop
  | .thrown e => e.isStdException
  | .killed => signalled
  | _ => False

theorem writeEnds_of_writeLoop {handler : SocketHandler} {results : List WriteResult} {fault : Fault}
    (h : (handler.writeLoop results).2 = some fault) :
    WriteEnds (WriteResult.sigpipe ∈ results) fault := by
  induction results generalizing handler with
  | nil => cases h
  | cons result results ih =>
      have hmore : WriteEnds (WriteResult.sigpipe ∈ results) fault →
          WriteEnds (WriteResult.sigpipe ∈ result :: results) fault := by
        intro hends
        cases fault with
        | killed => exact List.mem_cons_of_mem result hends
        | _ => exact hends
      unfold writeLoop at h
      split at h
      · split at h
        · split at h
          · exact hmore (ih h)
          · exact hmore (ih h)
        · cases h
        · cases h
        · cases h
          rfl
        · cases h
          exact List.mem_cons_self
      · cases h

/-- **What ends `write`** is a `std::runtime_error`, or the signal of one of the calls it makes. -/
theorem writeEnds_of_write {handler : SocketHandler} {results : List WriteResult}
    {pending : Option WriteResult} {fault : Fault}
    (h : (handler.write results pending).2 = some fault) :
    WriteEnds (WriteResult.sigpipe ∈ results ∨ pending = some .sigpipe) fault := by
  unfold write at h
  split at h
  · next heq =>
    cases h
    have hloop := writeEnds_of_writeLoop (congrArg Prod.snd heq)
    cases fault with
    | killed => exact .inl hloop
    | _ => exact hloop
  · split at h
    · split at h
      · cases h
      · cases h
        rfl
      · cases h
        exact .inr rfl
      · cases h
    · cases h

end SocketHandler

/-! ## Handlers of the poller -/

inductive Handler where
  | listener (isOpen : Bool)
  | socket (handler : SocketHandler)
  deriving DecidableEq

namespace Handler

def isListener : Handler → Bool
  | listener _ => true
  | socket _ => false

def isOpen : Handler → Bool
  | listener isOpen => isOpen
  | socket handler => handler.isOpen

def enqueue (buf : Bytes) : Handler → Handler
  | listener isOpen => listener isOpen
  | socket handler => socket { handler with writeQueue := handler.writeQueue ++ [(buf, 0)] }

def close : Handler → Handler
  | listener _ => listener false
  | socket handler => socket { handler with isOpen := false }

@[simp] theorem isOpen_enqueue (buf : Bytes) (handler : Handler) :
    (handler.enqueue buf).isOpen = handler.isOpen := by
  cases handler <;> rfl

@[simp] theorem isListener_enqueue (buf : Bytes) (handler : Handler) :
    (handler.enqueue buf).isListener = handler.isListener := by
  cases handler <;> rfl

@[simp] theorem isListener_close (handler : Handler) :
    handler.close.isListener = handler.isListener := by
  cases handler <;> rfl

@[simp] theorem isOpen_close (handler : Handler) : handler.close.isOpen = false := by
  cases handler <;> rfl

end Handler

end SquawkBus.Io
