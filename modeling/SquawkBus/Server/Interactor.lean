import SquawkBus.Io.Handler
import SquawkBus.Messages.Serialize
import SquawkBus.Serialization.FrameReader
import SquawkBus.Server.Authentication
import SquawkBus.Server.Hub

/-!
# `Interactor`

One connection, from the bytes it receives to the messages it hands on. An interactor reaches the
poller, the authentication manager and the hub, and through the hub every other interactor, so its
methods act on the whole `ServerState`: the handlers of the poller, and the interactors, the
authentication manager and the hub of the distributor.

A method returns the server as it is afterwards, what has happened on the way, and how it ended
if not by returning. The hub's calls on interactors are carried out here, and here they can fail:
on an interactor that no longer exists, on a `user()` that is not set, and on a message that
cannot be serialized.
-/

namespace SquawkBus.Server

open SquawkBus.Io SquawkBus.Messages SquawkBus.Serialization

/-! ## The state -/

variable {ρ : Type} [RegexEngine ρ]

structure Interactor where
  /-- The address of the object, by which the hub knows it. -/
  address : Ptr
  fd : Fd
  host : Bytes
  id : Bytes
  reader : FrameReader
  user : Option Bytes
  deriving DecidableEq

/-- `Poller` and `Distributor`. -/
structure ServerState (ρ : Type) [RegexEngine ρ] where
  handlers : OrdMap Fd Handler
  interactors : OrdMap Fd Interactor
  authenticationManager : AuthenticationManager
  hub : Hub ρ

/-- What happens on a connection. -/
inductive ServerEvent where
  | opened (fd : Fd)
  | closed (fd : Fd)
  /-- `process_message` is called. -/
  | processed (fd : Fd) (message : Message)
  /-- `authenticate` asks the poller to close the descriptor. -/
  | rejected (fd : Fd)
  /-- `user_` is set. -/
  | authenticated (fd : Fd) (user : Bytes)
  /-- `Hub::on_message` is called. -/
  | handled (fd : Fd) (message : Message)
  /-- `send` hands the message to the poller. -/
  | sent (fd : Fd) (message : Message)
  deriving DecidableEq

/-- What a method of the server leaves behind. -/
abbrev ServerOutcome (ρ : Type) [RegexEngine ρ] := Outcome (ServerState ρ) ServerEvent Fault

namespace ServerState

/-! ## The poller -/

/-- `Poller::write`. -/
def write (server : ServerState ρ) (fd : Fd) (buf : Bytes) : ServerState ρ :=
  match server.handlers[fd]? with
  | none => server
  | some handler => { server with handlers := server.handlers.insert fd (handler.enqueue buf) }

/-- `Poller::close`. -/
def close (server : ServerState ρ) (fd : Fd) : ServerState ρ :=
  match server.handlers[fd]? with
  | none => server
  | some handler => { server with handlers := server.handlers.insert fd handler.close }

/-! ## Interactors -/

/-- The interactor at an address. -/
def interactorAt (server : ServerState ρ) (address : Ptr) : Option Interactor :=
  (server.interactors.toList.find? fun entry => entry.2.address = address).map (·.2)

/-- What the accessors of the interactors return. -/
def identify (server : ServerState ρ) (address : Ptr) : Identity :=
  match server.interactorAt address with
  | none => ⟨[], [], []⟩
  | some interactor => ⟨interactor.user.getD [], interactor.host, interactor.id⟩

/-- `Interactor::send`. -/
def send (fd : Fd) (message : Message) (server : ServerState ρ) : ServerOutcome ρ :=
  match message.serialize >>= FrameBuffer.toVector with
  | .ok buf => .emit (server.write fd buf) [.sent fd message]
  | .error fault => .fail server fault

/-- A call the hub makes on an interactor. -/
def perform (call : Call) (server : ServerState ρ) : ServerOutcome ρ :=
  match server.interactorAt call.interactor with
  | none => .fail server .undefined
  | some interactor =>
      match call with
      | .user _ => if interactor.user.isSome then .done server else .fail server .undefined
      | .send _ message => server.send interactor.fd message
      | .str _ | .host _ | .id _ => .done server

/-- A call on the hub. Its calls on interactors are carried out when its tables have been changed; in
the source the two take turns. This shows only where a call fails: when a `send` throws, for a message
of `2 ^ 31` bytes or more, the tables have changed here as if it had not. -/
def onHub (server : ServerState ρ) (step : HubStep ρ) : ServerOutcome ρ :=
  let called := server.hub.step server.identify step
  (Outcome.forEach perform called.events { server with hub := called.state }).andThen fun server =>
    match called.fault with
    | none => .done server
    | some e => .fail server (.thrown e)

/-! ## Receiving -/

section

variable (md5 : Bytes → Bytes)

def authenticate (fd : Fd) (interactor : Interactor) (server : ServerState ρ) :
    Message → ServerOutcome ρ
  | .authenticationRequest request =>
      match server.authenticationManager.authenticate md5 request with
      | .error e => .fail server (.thrown e)
      | .ok user =>
          let server := { server with
            interactors := server.interactors.insert fd { interactor with user } }
          match user with
          | some user =>
              (Outcome.emit server [.authenticated fd user]).andThen
                (send fd (.authenticationResponse ⟨true⟩))
          | none =>
              -- No return after the close: the client is answered all the same.
              (Outcome.emit (server.close fd) [.rejected fd]).andThen
                (send fd (.authenticationResponse ⟨true⟩))
  | _ =>
      -- No return after the close: the null pointer that the cast gives is read from.
      ⟨server.close fd, [.rejected fd], some .undefined⟩

def processMessage (fd : Fd) (interactor : Interactor) (server : ServerState ρ) (message : Message) :
    ServerOutcome ρ :=
  (Outcome.emit server [.processed fd message]).andThen fun server =>
    match interactor.user with
    | none => server.authenticate md5 fd interactor message
    | some _ =>
        (Outcome.emit server [.handled fd message]).andThen fun server =>
          server.onHub (.message interactor.address message)

/-- One round of the loop of `receive`. -/
def receiveFrame (fd : Fd) (server : ServerState ρ) : ServerOutcome ρ :=
  match server.interactors[fd]? with
  | none => .fail server .undefined
  | some interactor =>
      match interactor.reader.read with
      | .error fault => .fail server fault
      | .ok (frame, reader) =>
          let interactor := { interactor with reader }
          let server := { server with interactors := server.interactors.insert fd interactor }
          match Message.deserialize frame with
          | .error fault => .fail server fault
          | .ok (message, _) => server.processMessage md5 fd interactor message

/-- `receive`. The loop has one round for each frame there is after the write: a round takes one
out and adds none. -/
def receive (fd : Fd) (buf : Bytes) (server : ServerState ρ) : ServerOutcome ρ :=
  match server.interactors[fd]? with
  | none => .fail server .undefined
  | some interactor =>
      match interactor.reader.write buf with
      | .error fault => .fail server fault
      | .ok (_, reader) =>
          Outcome.forEach (fun _ server => receiveFrame md5 fd server) reader.frames
            { server with interactors := server.interactors.insert fd { interactor with reader } }

end

end ServerState

end SquawkBus.Server
