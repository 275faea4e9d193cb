import SquawkBus.Io.TcpStream

/-!
# Handlers with queues

`TcpSocketPollHandler` on a `TcpStream` and `FilePollHandler` on a `FileStream`. Both put what is to be
written into a queue and empty it, chunk by chunk, when the poller calls `write`.

The answers of the outside world come with the calls: one for each call of a stream. A loop that reads
can go on for ever and is followed as far as there are answers; one that writes ends, and takes as many
of an endless sequence as it needs.
-/

namespace SquawkBus.Io

open ByteQueue

/-! ## Pieces of a buffer -/

/-- How many bytes are offered of a buffer: `std::min(orig_buf.size() - offset, write_bufsiz)`. -/
def chunk (writeBufsiz size offset : Nat) : Nat := min (sizeSub size offset) writeBufsiz

/-- The first `n` answers of a sequence. -/
def firstAnswers {α : Type} (answers : Nat → α) (n : Nat) : List α := (List.range n).map answers

/-! ## Sockets -/

structure TcpSocketPollHandler where
  stream : TcpStream
  readQueue : List Bytes
  writeQueue : ByteQueue UInt8
  readBufsiz : Nat
  writeBufsiz : Nat

namespace TcpSocketPollHandler

/-- A handler as the constructors make it, on a stream. -/
def new (stream : TcpStream) (readBufsiz writeBufsiz : Nat) : TcpSocketPollHandler :=
  ⟨stream, [], [], readBufsiz, writeBufsiz⟩

/-- The constructor without TLS. -/
def plain : Nat → Nat → TcpSocketPollHandler := new .plain

/-- The constructor with an SSL context. -/
def server : Nat → Nat → TcpSocketPollHandler := new (.secured false)

/-- The constructor with an SSL context and a server name. -/
def client : Nat → Nat → TcpSocketPollHandler := new .client

def isOpen (handler : TcpSocketPollHandler) : Bool := handler.stream.isOpen

/-- `stream_.socket->is_open(false)`. -/
def markClosed (handler : TcpSocketPollHandler) : TcpSocketPollHandler :=
  { handler with stream := { handler.stream with isOpen := false } }

/-- The body of the loop of `read`. -/
def readBody (answers : Answers) (handler : TcpSocketPollHandler) :
    Call TcpSocketPollHandler StreamEvent Exn Bool :=
  ((handler.stream.read answers handler.readBufsiz).within
    fun stream => { handler with stream := stream }).andThen fun attempt handler =>
      match attempt with
      | .blocked => .ret false handler
      | .eof => .ret false handler
      | .done buf => .ret true { handler with readQueue := handler.readQueue ++ [buf] }

/-- `read`, which catches what is thrown. -/
def read (answers : List Answers) (handler : TcpSocketPollHandler) :
    Call TcpSocketPollHandler StreamEvent Exn Bool :=
  ((Call.loop isOpen readBody answers handler).catching fun _ handler =>
    .ret false handler.markClosed).andThen fun _ handler => .ret handler.isOpen handler

/-- The stream as a queue is emptied into it. -/
def sink : Sink TcpStream Answers StreamEvent Exn UInt8 := ⟨TcpStream.isOpen, TcpStream.write⟩

/-- The loop of `write`. -/
def writeLoop (answers : List Answers) (handler : TcpSocketPollHandler) :
    Call TcpSocketPollHandler StreamEvent Exn Bool :=
  (drain sink (chunk handler.writeBufsiz) answers (handler.stream, handler.writeQueue)).within
    fun s => { handler with stream := s.1, writeQueue := s.2 }

/-- What `write` does after the loop. -/
def writePending (answers : Answers) (handler : TcpSocketPollHandler) :
    Call TcpSocketPollHandler StreamEvent Exn Bool :=
  if handler.isOpen && handler.stream.wantWrite then
    ((handler.stream.write answers []).within
      fun stream => { handler with stream := stream }).andThen fun _ handler =>
        .ret handler.isOpen handler
  else .ret handler.isOpen handler

/-- `write`, which throws again what it catches. The answer `last` is for the empty write at the end. -/
def write (answers : Nat → Answers) (last : Answers) (handler : TcpSocketPollHandler) :
    Call TcpSocketPollHandler StreamEvent Exn Bool :=
  ((handler.writeLoop (firstAnswers answers ((waiting handler.writeQueue).length + 1))).andThen
    fun _ handler => handler.writePending last).catching fun e handler => .throws e handler.markClosed

def close (handler : TcpSocketPollHandler) : TcpSocketPollHandler :=
  if handler.isOpen then handler.markClosed else handler

def dequeue (handler : TcpSocketPollHandler) : Option Bytes × TcpSocketPollHandler :=
  match handler.readQueue with
  | [] => (none, handler)
  | buf :: queue => (some buf, { handler with readQueue := queue })

def enqueue (buf : Bytes) (handler : TcpSocketPollHandler) : TcpSocketPollHandler :=
  { handler with writeQueue := handler.writeQueue ++ [(buf, 0)] }

/-! ### Calls in a row -/

/-- What the poller does with a handler. -/
inductive Op where
  | read (answers : List Answers)
  | write (answers : Nat → Answers) (last : Answers)
  | close
  | dequeue
  | enqueue (buf : Bytes)

/-- A handler and what has been done with its stream. -/
abbrev Session := TcpSocketPollHandler × List StreamEvent

/-- The poller goes on with a handler whose `write` has thrown. -/
def step (s : Session) : Op → Session
  | .read answers => ((s.1.read answers).state, s.2 ++ (s.1.read answers).events)
  | .write answers last => ((s.1.write answers last).state, s.2 ++ (s.1.write answers last).events)
  | .close => (s.1.close, s.2)
  | .dequeue => (s.1.dequeue.2, s.2)
  | .enqueue buf => (s.1.enqueue buf, s.2)

def run (ops : List Op) (handler : TcpSocketPollHandler) : Session := ops.foldl step (handler, [])

/-- What an operation puts into the write queue. -/
def Op.enqueued : Op → Bytes
  | .enqueue buf => buf
  | _ => []

end TcpSocketPollHandler

/-! ## Files -/

inductive Errno where
  | again
  | wouldBlock
  | other (errno : Int)
  deriving DecidableEq

/-- What `::write` does with some bytes. It writes no more than it is given. -/
structure FileAnswer where
  write : Bytes → Except Errno Nat
  le_of_write : ∀ buf n, write buf = .ok n → n ≤ buf.length

/-- A call of `::write` with what it returned. -/
structure FileEvent where
  buf : Bytes
  result : Except Errno Nat

/-- The bytes that went out. -/
def FileEvent.taken (event : FileEvent) : Bytes :=
  match event.result with
  | .ok n => event.buf.take n
  | .error _ => []

/-- `FileStream`, as far as writing goes: whether the file is open. -/
structure FileStream where
  isOpen : Bool
  deriving DecidableEq

/-- `FileStream::write`. -/
def FileStream.write (answer : FileAnswer) (buf : Bytes) (stream : FileStream) :
    Call FileStream FileEvent Exn (Attempt Nat) :=
  (⟨stream, [⟨buf, answer.write buf⟩], .ok (answer.write buf)⟩ :
    Call FileStream FileEvent Exn (Except Errno Nat)).andThen fun result stream =>
      match result with
      | .error errno =>
          if errno = .again ∨ errno = .wouldBlock then .ret .blocked stream
          else .throws (.systemError "client file failed to write") { stream with isOpen := false }
      | .ok 0 => .ret .eof { stream with isOpen := false }
      | .ok n => .ret (.done n) stream

/-- `FilePollHandler`, as far as writing goes. -/
structure FilePollHandler where
  stream : FileStream
  writeQueue : ByteQueue UInt8
  writeBufsiz : Nat

namespace FilePollHandler

def new (writeBufsiz : Nat) : FilePollHandler := ⟨⟨true⟩, [], writeBufsiz⟩

def isOpen (handler : FilePollHandler) : Bool := handler.stream.isOpen

def markClosed (handler : FilePollHandler) : FilePollHandler :=
  { handler with stream := { handler.stream with isOpen := false } }

def sink : Sink FileStream FileAnswer FileEvent Exn UInt8 := ⟨FileStream.isOpen, FileStream.write⟩

/-- The loop of `write`. -/
def writeLoop (answers : List FileAnswer) (handler : FilePollHandler) :
    Call FilePollHandler FileEvent Exn Bool :=
  (drain sink (chunk handler.writeBufsiz) answers (handler.stream, handler.writeQueue)).within
    fun s => { handler with stream := s.1, writeQueue := s.2 }

/-- `write`, which is `noexcept` and throws again what it catches. -/
def write (answers : Nat → FileAnswer) (handler : FilePollHandler) :
    Call FilePollHandler FileEvent Fault Bool :=
  ((handler.writeLoop (firstAnswers answers ((waiting handler.writeQueue).length + 1))).catching
    fun _ handler => .throws .terminated handler.markClosed).andThen fun _ handler =>
      .ret handler.isOpen handler

def enqueue (buf : Bytes) (handler : FilePollHandler) : FilePollHandler :=
  { handler with writeQueue := handler.writeQueue ++ [(buf, 0)] }

/-! ### Calls in a row -/

inductive Op where
  | write (answers : Nat → FileAnswer)
  | enqueue (buf : Bytes)

def step : Op → FilePollHandler → Outcome FilePollHandler FileEvent Fault
  | .write answers, handler => (handler.write answers).toOutcome
  | .enqueue buf, handler => .done (handler.enqueue buf)

/-- The operations one after the other, up to the one that ends the process. -/
def run (ops : List Op) (handler : FilePollHandler) : Outcome FilePollHandler FileEvent Fault :=
  Outcome.forEach step ops handler

def Op.enqueued : Op → Bytes
  | .enqueue buf => buf
  | _ => []

end FilePollHandler

end SquawkBus.Io
