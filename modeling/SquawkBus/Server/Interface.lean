import SquawkBus.Messages.Basic

/-!
# What the managers ask of the rest of the program

The managers of the hub reach an interactor through five members only. A step of a manager
records the calls it makes, in order; what the accessors return is given by `identify`. Calls made
only to write a log line are recorded when they reach an interactor other than the one the step is
about.

`RegexEngine` stands for `std::regex`: the constructor, which throws on a malformed pattern, and
`std::regex_match`, which asks for a match of the whole text.
-/

namespace SquawkBus.Server

open SquawkBus.Messages

/-! ## Calls of the hub -/

/-- A call to a member of an `Interactor`. -/
inductive Call where
  | str (interactor : Ptr)
  | user (interactor : Ptr)
  | host (interactor : Ptr)
  | id (interactor : Ptr)
  | send (interactor : Ptr) (message : Message)
  deriving DecidableEq

/-- The interactor a call is made on. -/
def Call.interactor : Call → Ptr
  | .str i => i
  | .user i => i
  | .host i => i
  | .id i => i
  | .send i _ => i

/-- What `user()`, `host()` and `id()` of an interactor return. -/
structure Identity where
  user : Bytes
  host : Bytes
  id : Bytes
  deriving DecidableEq

/-- A call `notification_manager.notify(subscriber, topic, is_add)`. -/
structure Notice where
  subscriber : Ptr
  topic : Bytes
  isAdd : Bool
  deriving DecidableEq

/-! ## Regular expressions -/

/-- `std::regex` as the server uses it. What the constructor and `std::regex_match` need of the stack is
taken to be there. -/
class RegexEngine (ρ : Type) where
  /-- `std::regex(pattern)`; `none` when the constructor throws `std::regex_error`. -/
  compile : Bytes → Option ρ
  /-- `std::regex_match(text, regex)`. -/
  isMatch : Bytes → ρ → Bool

/-- The pattern is well formed and matches the whole of the text. -/
def Matches (ρ : Type) [RegexEngine ρ] (pattern text : Bytes) : Prop :=
  ∃ regex : ρ, RegexEngine.compile pattern = some regex ∧ RegexEngine.isMatch text regex

/-! ## Interactors and an engine to run the model with -/

/-- Interactors whose user and id are their number. -/
def numbered (i : Ptr) : Identity := ⟨[UInt8.ofNat i], ascii "host", [UInt8.ofNat i]⟩

/-- The simplest regular expressions: a text that stands for itself, and `.*`. -/
inductive PlainRegex where
  | literal (text : Bytes)
  | anything
  deriving DecidableEq

namespace PlainRegex

/-- Whether a byte has a meaning of its own in a pattern. -/
def isSpecial (c : UInt8) : Bool := (ascii "^$\\.*+?()[]\x7b\x7d|").contains c

/-- A pattern with special characters other than `.*` is refused, as `(` is by `std::regex`. -/
instance : RegexEngine PlainRegex where
  compile pattern :=
    if pattern = ascii ".*" then some .anything
    else if pattern.any isSpecial then none
    else some (.literal pattern)
  isMatch
    | text, .literal pattern => text == pattern
    | text, .anything => text.all fun c => c != 10 && c != 13

end PlainRegex

end SquawkBus.Server
