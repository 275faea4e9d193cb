import Mathlib.Algebra.Group.Int.Defs
import Mathlib.Algebra.Group.Nat.Defs
import SquawkBus.Library.Outcome
import SquawkBus.Library.Table

/-!
# The C++ vocabulary of the model

Strings and `std::vector<char>` are byte lists, `std::map` and `std::set` the ordered maps and
sets of `Library.Table`. `Interactor*` is a number: the address of the object, which is also what
the pointer-keyed maps of the server order their entries by.
-/

namespace SquawkBus

/-! ## Values -/

/-- `std::string` and `std::vector<char>`: bytes. -/
abbrev Bytes := List UInt8

/-- `Interactor*`. -/
abbrev Ptr := Nat

/-- The ASCII bytes of a literal. -/
def ascii (s : String) : Bytes := s.toList.map fun c => c.toNat.toUInt8

/-! ## Numbers -/

/-- The value a 32-bit `int` holds after the exact result `i` has been stored in it. -/
def int (i : Int) : Int := i.bmod (2 ^ 32)

theorem int_of_bounds {i : Int} (hlo : -(2 ^ 31) ≤ i) (hhi : i < 2 ^ 31) : int i = i := by
  unfold int
  rw [Int.bmod_eq_of_le] <;> omega

/-- An `int` is in range and differs from the exact result by a multiple of `2 ^ 32`. -/
theorem int_spec (i : Int) : ∃ k, i = int i + 2 ^ 32 * k ∧ -(2 ^ 31) ≤ int i ∧ int i < 2 ^ 31 := by
  have hlo := Int.le_bmod (x := i) (m := 2 ^ 32) (by decide)
  have hhi := Int.bmod_lt (x := i) (m := 2 ^ 32) (by decide)
  have hdiv := Int.bdiv_add_bmod i (2 ^ 32)
  refine ⟨i.bdiv (2 ^ 32), ?_, ?_, ?_⟩ <;> unfold int <;> omega

@[simp] theorem int_int_add (i j : Int) : int (int i + j) = int (i + j) := Int.bmod_add_bmod

/-- The difference of two `std::size_t`, which wraps around. -/
def sizeSub (m n : Nat) : Nat := if n ≤ m then m - n else 2 ^ 64 - (n - m)

/-! ## Exceptions and faults -/

/-- The exceptions the server can throw. All but the last derive from `std::exception`. -/
inductive Exn where
  | runtimeError (what : String)
  | invalidArgument (what : String)
  | outOfRange (what : String)
  | lengthError
  | regexError
  | systemError (what : String)
  /-- `throw "..."`: a `const char*`. -/
  | charLiteral (text : String)
  deriving DecidableEq, Repr

/-- Whether a handler for `const std::exception&` catches it. -/
def Exn.isStdException : Exn → Bool
  | .charLiteral _ => false
  | _ => true

/-- The ways a call ends other than by returning. -/
inductive Fault where
  /-- An exception leaves the call. -/
  | thrown (e : Exn)
  /-- `std::terminate`: an exception reached the boundary of a `noexcept` function. -/
  | terminated
  /-- Undefined behaviour: a null or dangling pointer, an empty `optional`, the `front()` of an
  empty `deque`. -/
  | undefined
  /-- A signal ends the process: the default action of `SIGPIPE`, which nothing here changes. -/
  | killed
  deriving DecidableEq, Repr

end SquawkBus
