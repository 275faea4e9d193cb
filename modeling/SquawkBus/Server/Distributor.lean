import SquawkBus.Messages.RoundTrip
import SquawkBus.Server.Interactor

/-!
# `Distributor`

The callbacks of the poller's client: it keeps an interactor for each descriptor, and passes on
what is read.
-/

namespace SquawkBus.Server

open SquawkBus.Io SquawkBus.Messages SquawkBus.Serialization

/-! ## What it is given -/

variable {ρ : Type} [RegexEngine ρ]

/-- A connection just accepted: its descriptor and the address of its peer, and the address and the
`uuid` that the interactor made for it is given. -/
structure Client where
  fd : Fd
  host : Bytes
  address : Ptr
  id : Bytes

/-- What the files of the configuration hold when they are read again: the lines of the password
file, and what loading the authorizations gives. -/
structure Configuration (ρ : Type) [RegexEngine ρ] where
  passwords : Option (List Bytes)
  authorizations : Bytes → Except Exn (List (AuthorizationSpec ρ))

namespace ServerState

/-- The server before the first connection. -/
def new (handlers : OrdMap Fd Handler) (authenticationManager : AuthenticationManager)
    (authorizationManager : AuthorizationManager ρ) : ServerState ρ :=
  ⟨handlers, ∅, authenticationManager, .new authorizationManager⟩

/-! ## The callbacks -/

/-- `on_startup` and `on_interrupt`. -/
def onInterrupt (configuration : Configuration ρ) (server : ServerState ρ) : ServerOutcome ρ :=
  match server.authenticationManager.load configuration.passwords with
  | .error e => .fail server (.thrown e)
  | .ok authenticationManager =>
      { server with authenticationManager }.onHub (.reload configuration.authorizations)

/-- `on_open`. An interactor that is still there for the descriptor is not replaced. -/
def onOpen (client : Client) (server : ServerState ρ) : ServerOutcome ρ :=
  let interactor : Interactor :=
    ⟨client.address, client.fd, client.host, client.id, .empty, none⟩
  .emit { server with interactors := server.interactors.insertIfNew client.fd interactor }
    [.opened client.fd]

def onClose (fd : Fd) (server : ServerState ρ) : ServerOutcome ρ :=
  match server.interactors[fd]? with
  | none => .done server
  | some interactor =>
      (server.onHub (.disconnected interactor.address)).andThen fun server =>
        .emit { server with interactors := server.interactors.erase fd } [.closed fd]

def onRead (md5 : Bytes → Bytes) (fd : Fd) (bufs : List Bytes) (server : ServerState ρ) :
    ServerOutcome ρ :=
  match server.interactors[fd]? with
  | none => .done server
  | some _ => Outcome.forEach (receive md5 fd) bufs server

end ServerState

/-- A callback of the distributor. -/
inductive Callback (ρ : Type) [RegexEngine ρ] where
  | interrupt (configuration : Configuration ρ)
  | opened (client : Client)
  | read (fd : Fd) (bufs : List Bytes)
  | closed (fd : Fd)

namespace ServerState

def callback (md5 : Bytes → Bytes) (server : ServerState ρ) : Callback ρ → ServerOutcome ρ
  | .interrupt configuration => server.onInterrupt configuration
  | .opened client => server.onOpen client
  | .read fd bufs => server.onRead md5 fd bufs
  | .closed fd => server.onClose fd

/-- The server after a list of callbacks; an exception ends its own callback only. -/
def after (md5 : Bytes → Bytes) (server : ServerState ρ) (callbacks : List (Callback ρ)) : ServerState ρ :=
  Outcome.runState (callback md5) server callbacks

end ServerState

/-! ## What to run the server with -/

/-- A digest, for runs in which no password is looked at. -/
def zeroDigest (_ : Bytes) : Bytes := List.replicate 16 0

/-- The frame of a client that authenticates without a password. -/
def login : Bytes := Message.wire (.authenticationRequest ⟨ascii "none", []⟩)

end SquawkBus.Server
