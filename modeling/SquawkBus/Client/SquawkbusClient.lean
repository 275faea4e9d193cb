import SquawkBus.Io.Handler
import SquawkBus.Library.TextInput
import SquawkBus.Messages.Sending
import SquawkBus.Messages.Text
import SquawkBus.Server.SpecLine

/-!
# `SquawkbusClient`

The command line client: a poller with two handlers, one for the socket and one for the console. A
command read from the console becomes a request to the server, and a message of the server a text on
standard output. The poller removes a handler only to call `on_close`, which ends the process, so both
handlers are there as long as it runs.

`::poll` itself succeeds, and no signal is handled: `on_interrupt` does nothing.
-/

namespace SquawkBus.Client

open SquawkBus.Io SquawkBus.Messages SquawkBus.Serialization

/-! ## What the client does -/

/-- The ways a call ends other than by returning. -/
inductive Halt where
  | fault (fault : Fault)
  /-- `exit(0)`. -/
  | exited
  deriving DecidableEq

/-- What the client does that can be seen. -/
inductive ClientEvent where
  /-- A message is handed to the poller. -/
  | sent (message : Message)
  /-- `handle_message` has made a message of a frame. -/
  | processed (message : Message)
  | printed (text : Bytes)
  deriving DecidableEq

/-! ## The console -/

/-- The `FilePollHandler` of the console, to which nothing is written. -/
structure Console where
  isOpen : Bool
  readQueue : List Bytes
  deriving DecidableEq

namespace Console

/-- `read`, and whether it throws. -/
def read (console : Console) : List ReadResult → Console × Bool
  | [] => (console, false)
  | result :: results =>
      if console.isOpen then
        match result with
        | .data buf => { console with readQueue := console.readQueue ++ [buf] }.read results
        | .blocked => (console, false)
        | .eof => ({ console with isOpen := false }, false)
        | .failed => ({ console with isOpen := false }, true)
        -- Nothing is written to a console.
        | .sigpipe => (console, false)
      else (console, false)

end Console

/-! ## The client -/

/-- The client, and its poller. -/
structure SquawkbusClient where
  socket : SocketHandler
  console : Console
  reader : FrameReader
  authenticationRequest : AuthenticationRequest
  deriving DecidableEq

abbrev ClientOutcome := Outcome SquawkbusClient ClientEvent Halt

/-- `std::puts` of a C string. -/
def puts (text : Bytes) : ClientEvent := .printed (text.takeWhile (· ≠ 0) ++ ascii "\n")

/-! ## Input streams -/

/-- `>>` into a string, which stays as it is when there is no word. -/
def extractString (old : Bytes) (input : TextInput UInt8) : Bytes × TextInput UInt8 :=
  let (word, input) := input.word Server.isSpace
  (word.getD old, input)

/-- `>> std::quoted`. -/
def extractQuoted (old : Bytes) (input : TextInput UInt8) : Bytes × TextInput UInt8 :=
  input.quoted 34 92 Server.isSpace old

/-- `>>` into an `int`: zero where there is no number, and the nearest `int` to one that is too large. -/
def extractInt (old : Int32) (input : TextInput UInt8) : Int32 :=
  match input.good, input.text.dropWhile Server.isSpace with
  | true, c :: text =>
      let (negative, text) := Server.takeSign (c :: text)
      let digits := text.takeWhile Server.isDigit
      let value : Int := if negative then -Server.decimalValue digits else Server.decimalValue digits
      Int32.ofInt (max (-(2 ^ 31)) (min value (2 ^ 31 - 1)))
  | _, _ => old

namespace SquawkbusClient

/-! ## Commands -/

/-- The client before its first event, on a connected socket. -/
def new (authenticationRequest : AuthenticationRequest) : SquawkbusClient :=
  ⟨.new, ⟨true, []⟩, .empty, authenticationRequest⟩

/-- What is made of a message to be sent: its frame goes to the poller. -/
def send (message : Message) (client : SquawkbusClient) : ClientOutcome :=
  match message.serialize >>= FrameBuffer.toVector with
  | .ok buf => .emit { client with
      socket := { client.socket with writeQueue := client.socket.writeQueue ++ [(buf, 0)] } }
      [.sent message]
  | .error fault => .fail client (.fault fault)

def onStartup (client : SquawkbusClient) : ClientOutcome :=
  client.send (.authenticationRequest client.authenticationRequest)

def prompt : Bytes :=
  ascii "Usage: <PUBLISH | SUBSCRIBE | UNSUBSCRIBE | LISTEN | UNLISTEN> <options...>\n" ++
    ascii "PUBLISH <topic> <content> [<content-type> [<entitlement>]]\n" ++
    ascii "SUBSCRIBE <topic>\n" ++
    ascii "UNSUBSCRIBE <topic>\n" ++
    ascii "LISTEN <regex>\n" ++
    ascii "UNLISTEN <regex>\n"

/-- `poller.close(client_socket_->fd())`. -/
def closeSocket (client : SquawkbusClient) : SquawkbusClient :=
  { client with socket := { client.socket with isOpen := false } }

/-- The request that `PUBLISH` makes of the rest of the line. -/
def publish (input : TextInput UInt8) : Message :=
  let (topic, input) := extractQuoted [] input
  let (content, input) := extractQuoted [] input
  let (contentType, input) := extractQuoted [] input
  let entitlement := extractInt 0 input
  let contentType := if contentType.isEmpty then ascii "text/plain" else contentType
  .multicastData ⟨topic, [⟨entitlement, contentType, content⟩]⟩

/-- `handle_command`. -/
def handleCommand (buf : Bytes) (client : SquawkbusClient) : ClientOutcome :=
  let (command, input) := extractString [] (.start buf)
  if command = ascii "CLOSE" then
    .done client.closeSocket
  else if command = ascii "SUBSCRIBE" then
    client.send (.subscriptionRequest ⟨(extractString [] input).1, true⟩)
  else if command = ascii "UNSUBSCRIBE" then
    client.send (.subscriptionRequest ⟨(extractString [] input).1, false⟩)
  else if command = ascii "LISTEN" then
    client.send (.notificationRequest ⟨(extractString [] input).1, true⟩)
  else if command = ascii "UNLISTEN" then
    client.send (.notificationRequest ⟨(extractString [] input).1, false⟩)
  else if command = ascii "PUBLISH" then
    client.send (publish input)
  else
    .emit client [puts (ascii "unknown command: " ++ command)]

/-! ## Messages -/

/-- What is done with a message of the server. -/
def showMessage (message : Message) (client : SquawkbusClient) : ClientOutcome :=
  match message with
  | .authenticationResponse response =>
      if response.isAuthenticated then
        .emit client [puts (ascii "Authenticated"), .printed prompt]
      else
        ⟨client, [puts (ascii "Authentication failed")], some .exited⟩
  | _ => .emit client [puts (ascii "Received: " ++ message.str)]

/-- One round of the loop of `handle_message`. -/
def handleFrame (client : SquawkbusClient) : ClientOutcome :=
  match client.reader.read with
  | .error fault => .fail client (.fault fault)
  | .ok (frame, reader) =>
      let client := { client with reader }
      match Message.deserialize frame with
      | .error fault => .fail client (.fault fault)
      | .ok (message, _) => (Outcome.emit client [.processed message]).andThen (showMessage message)

/-- `handle_message`. The loop has one round for each frame there is after the write. -/
def handleMessage (buf : Bytes) (client : SquawkbusClient) : ClientOutcome :=
  match client.reader.write buf with
  | .error fault => .fail client (.fault fault)
  | .ok (_, reader) =>
      Outcome.forEach (fun _ => handleFrame) reader.frames { client with reader }

/-! ## The poller -/

/-- The handler for `std::exception` in the `noexcept` functions of the poller. -/
def catchStdException (outcome : ClientOutcome) : ClientOutcome :=
  match outcome.fault with
  | some (.fault (.thrown e)) =>
      { outcome with fault := if e.isStdException then none else some (.fault .terminated) }
  | _ => outcome

/-- `handle_read` of the console. An exception of `read` leaves what has been read in the queue. -/
def readConsole (results : List ReadResult) (client : SquawkbusClient) : ClientOutcome :=
  match client.console.read results with
  | (console, true) => .done { client with console }
  | (console, false) =>
      catchStdException <| Outcome.forEach handleCommand console.readQueue
        { client with console := { console with readQueue := [] } }

/-- `handle_read` of the socket, and whether it returns true. -/
def readSocket (results : List ReadResult) (client : SquawkbusClient) : ClientOutcome × Bool :=
  let killed := client.socket.killedByRead results
  let (socket, bufs) := client.socket.read results
  let outcome := if killed then .fail { client with socket } (.fault .killed)
    else Outcome.forEach handleMessage bufs { client with socket }
  (catchStdException outcome, socket.isOpen && outcome.fault.isNone)

/-- `handle_write` of the socket. -/
def writeSocket (results : List WriteResult) (pending : Option WriteResult)
    (client : SquawkbusClient) : ClientOutcome :=
  let (socket, ended) := client.socket.write results pending
  catchStdException <|
    match ended with
    | none => .done { client with socket }
    | some fault => .fail { client with socket } (.fault fault)

/-! ### The steps of the loop -/

/-- The descriptor of the socket with events, and what the calls of its stream end with. -/
structure SocketEvent where
  readable : Bool
  writable : Bool
  reads : List ReadResult
  writes : List WriteResult
  pending : Option WriteResult

/-- The steps of the loop. -/
inductive ClientStep where
  | console (results : List ReadResult)
  | socket (event : SocketEvent)
  | sweep

/-- `handle_event` of the socket up to the write, and whether it goes on to it. -/
def handleSocketRead (event : SocketEvent) (client : SquawkbusClient) : ClientOutcome × Bool :=
  if event.readable then client.readSocket event.reads else (.done client, true)

/-- `handle_event` from the write on. -/
def handleSocketWrite (event : SocketEvent) (canContinue : Bool) (client : SquawkbusClient) :
    ClientOutcome :=
  if canContinue && event.writable then client.writeSocket event.writes event.pending
  else .done client

/-- `handle_event`. -/
def handleSocket (event : SocketEvent) (client : SquawkbusClient) : ClientOutcome :=
  let (outcome, canContinue) := client.handleSocketRead event
  outcome.andThen (handleSocketWrite event canContinue)

/-- `remove_closed_handlers`: `on_close` ends the process. -/
def sweep (client : SquawkbusClient) : ClientOutcome :=
  if client.socket.isOpen && client.console.isOpen then .done client else .fail client .exited

def clientStep (step : ClientStep) (client : SquawkbusClient) : ClientOutcome :=
  match step with
  | .console results => client.readConsole results
  | .socket event => client.handleSocket event
  | .sweep => client.sweep

end SquawkbusClient

end SquawkBus.Client
