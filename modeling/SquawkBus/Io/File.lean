import Mathlib.Data.Finset.Erase
import Mathlib.Data.Finset.Insert
import SquawkBus.Basic

/-!
# `File`

The owner of a descriptor, as far as closing it is concerned. Whether the descriptor is still owned is
one flag, `is_open_`, which is cleared when the descriptor is closed, when the other side turns out to be
gone, and when the object is moved from; the destructor goes by it.

A `FileTable` holds `File`s that come from each other by moves, and the descriptors that the system has
open, which other parts of the process open as well. A call reports the calls `::close` it makes.
-/

namespace SquawkBus.Io

/-! ## The class -/

structure File where
  fd : Int
  isOpen : Bool
  deriving DecidableEq

/-- A call `::close(fd)`. -/
structure CloseCall where
  fd : Int
  succeeded : Bool
  deriving DecidableEq

/-- What `::close(fd)` does to the open descriptors: it fails unless `fd` is one of them. -/
def systemClose (fd : Int) (descriptors : Finset Nat) : Option (Finset Nat) :=
  if 0 ≤ fd ∧ fd.toNat ∈ descriptors then some (descriptors.erase fd.toNat) else none

namespace File

/-- The constructor from a descriptor. -/
def new (fd : Int) : File := ⟨fd, true⟩

/-- `operator = (File&&)`: what becomes of the object assigned to and of the other. What the first has
held is forgotten. -/
def moveAssign (_this other : File) : File × File := (⟨other.fd, other.isOpen⟩, ⟨-1, false⟩)

/-- `File(File&&)`: the assignment to a `File` that has no descriptor yet. -/
def moveConstruct (other : File) : File × File := moveAssign (new 0) other

/-- `is_open(value)`. -/
def setOpen (file : File) (value : Bool) : File := { file with isOpen := value }

/-- `close`. The flag is left as it is when the call of the system fails. -/
def close (file : File) (descriptors : Finset Nat) : Outcome (File × Finset Nat) CloseCall Exn :=
  match systemClose file.fd descriptors with
  | none =>
      ⟨(file, descriptors), [⟨file.fd, false⟩], some (.systemError "failed to close socket")⟩
  | some descriptors => .emit (file.setOpen false, descriptors) [⟨file.fd, true⟩]

/-- The destructor, which lets no exception out. -/
def destroy (file : File) (descriptors : Finset Nat) : Outcome (Finset Nat) CloseCall Exn :=
  if file.isOpen then .done descriptors
  else .emit (file.close descriptors).state.2 (file.close descriptors).events

end File

/-! ## Several objects -/

/-- The `File`s there have been, `none` where one has been destroyed, and the open descriptors. -/
structure FileTable where
  files : List (Option File)
  descriptors : Finset Nat

/-- A call on one of the `File`s, or the system giving out a descriptor to somebody else. -/
inductive FileOp where
  | close (i : Nat)
  /-- `is_open(false)`, at the end of the file or after a fault. -/
  | setClosed (i : Nat)
  | moveConstruct (i : Nat)
  /-- The assignment to a `File` just made for the descriptor `fd`. -/
  | moveAssign (i : Nat) (fd : Int)
  | destroy (i : Nat)
  | opened (fd : Nat)
  deriving DecidableEq

namespace FileTable

/-- One `File`, for the descriptor `fd`. -/
def new (fd : Nat) (descriptors : Finset Nat) : FileTable := ⟨[some (.new fd)], descriptors⟩

/-- The `File` that is there under a number. -/
def file? (table : FileTable) (i : Nat) : Option File := (table.files[i]?).join

/-- A `File` after a call on it. -/
def put (table : FileTable) (i : Nat) (file : Option File) : FileTable :=
  { table with files := table.files.set i file }

/-- A new `File` behind the others, and what the move has left of the old one. -/
def move (table : FileTable) (i : Nat) (moved : File × File) : FileTable :=
  { table with files := table.files.set i (some moved.2) ++ [some moved.1] }

/-- A call on a `File`; none can be made on one that is not there. -/
def onFile (table : FileTable) (i : Nat) (call : File → Outcome FileTable CloseCall Exn) :
    Outcome FileTable CloseCall Exn :=
  match table.file? i with
  | none => .done table
  | some file => call file

def step (table : FileTable) : FileOp → Outcome FileTable CloseCall Exn
  | .close i => table.onFile i fun file =>
      let closed := file.close table.descriptors
      ⟨{ table.put i (some closed.state.1) with descriptors := closed.state.2 }, closed.events,
        closed.fault⟩
  | .setClosed i => table.onFile i fun file => .done (table.put i (some (file.setOpen false)))
  | .moveConstruct i => table.onFile i fun file => .done (table.move i file.moveConstruct)
  | .moveAssign i fd => table.onFile i fun file =>
      .done (table.move i ((File.new fd).moveAssign file))
  | .destroy i => table.onFile i fun file =>
      let destroyed := file.destroy table.descriptors
      ⟨{ table.put i none with descriptors := destroyed.state }, destroyed.events, destroyed.fault⟩
  | .opened fd => .done { table with descriptors := insert fd table.descriptors }

/-- All the `File`s have been destroyed. -/
def AllDestroyed (table : FileTable) : Prop := ∀ file ∈ table.files, file = none

instance decidableAllDestroyed (table : FileTable) : Decidable table.AllDestroyed :=
  inferInstanceAs (Decidable (∀ file ∈ table.files, file = none))

end FileTable

end SquawkBus.Io
