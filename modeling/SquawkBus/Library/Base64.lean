import SquawkBus.Library.Digits
import Mathlib.Data.UInt

/-!
# Base64

The encoding of bytes in base64 as its standard describes it. Three bytes are a group of 24 bits, and a
group is written as its four *sextets*, the highest first. At the end of the bytes one or two may be left
over: they are filled up with zero bits to a whole number of sextets, and the text with the padding
character to four characters.

The encoding is given for any alphabet of symbols. `standardSymbol` is the usual one, by its ranges.
-/

namespace Base64

/-! ## Encoding -/

variable {α : Type*}

/-- The lowest `count` groups of six bits of a number, the highest of them first. -/
def sextets (count n : Nat) : List Nat := (Digits.fixed 64 count n).reverse

/-- The text of a list of bytes. -/
def encode (symbol : Nat → α) (pad : α) : List UInt8 → List α
  | x :: y :: z :: bytes =>
      (sextets 4 (x.toNat * 2 ^ 16 + y.toNat * 2 ^ 8 + z.toNat)).map symbol ++
        encode symbol pad bytes
  | [x, y] => (sextets 3 ((x.toNat * 2 ^ 8 + y.toNat) * 2 ^ 2)).map symbol ++ [pad]
  | [x] => (sextets 2 (x.toNat * 2 ^ 4)).map symbol ++ [pad, pad]
  | [] => []

/-- The symbol of a sextet: `A` to `Z`, `a` to `z`, `0` to `9`, `+` and `/`. -/
def standardSymbol (n : Nat) : UInt8 :=
  if n < 26 then UInt8.ofNat (65 + n)
  else if n < 52 then UInt8.ofNat (97 + (n - 26))
  else if n < 62 then UInt8.ofNat (48 + (n - 52))
  else if n = 62 then 43
  else 47

/-- The padding character `=`. -/
def standardPad : UInt8 := 61

/-! ## Groups -/

variable {symbol : Nat → α} {pad : α}

/-- The text of a whole group: each sextet has the end of one byte and the start of the next. -/
theorem encode_group (x y z : UInt8) (bytes : List UInt8) :
    encode symbol pad (x :: y :: z :: bytes) =
      symbol (x.toNat / 4) :: symbol (x.toNat % 4 * 16 + y.toNat / 16) ::
        symbol (y.toNat % 16 * 4 + z.toNat / 64) :: symbol (z.toNat % 64) ::
          encode symbol pad bytes := by
  have hx := x.toNat_lt
  have hy := y.toNat_lt
  have hz := z.toNat_lt
  have hsextets : sextets 4 (x.toNat * 2 ^ 16 + y.toNat * 2 ^ 8 + z.toNat) =
      [x.toNat / 4, x.toNat % 4 * 16 + y.toNat / 16, y.toNat % 16 * 4 + z.toNat / 64,
        z.toNat % 64] := by
    simp only [sextets, Digits.fixed_succ, Digits.fixed_zero, List.reverse_cons, List.reverse_nil,
      List.nil_append, List.cons_append, List.cons.injEq, and_true]
    omega
  rw [encode, hsextets]
  rfl

theorem encode_two (x y : UInt8) :
    encode symbol pad [x, y] =
      [symbol (x.toNat / 4), symbol (x.toNat % 4 * 16 + y.toNat / 16),
        symbol (y.toNat % 16 * 4), pad] := by
  have hx := x.toNat_lt
  have hy := y.toNat_lt
  have hsextets : sextets 3 ((x.toNat * 2 ^ 8 + y.toNat) * 2 ^ 2) =
      [x.toNat / 4, x.toNat % 4 * 16 + y.toNat / 16, y.toNat % 16 * 4] := by
    simp only [sextets, Digits.fixed_succ, Digits.fixed_zero, List.reverse_cons, List.reverse_nil,
      List.nil_append, List.cons_append, List.cons.injEq, and_true]
    omega
  rw [encode, hsextets]
  rfl

theorem encode_one (x : UInt8) :
    encode symbol pad [x] = [symbol (x.toNat / 4), symbol (x.toNat % 4 * 16), pad, pad] := by
  have hx := x.toNat_lt
  have hsextets : sextets 2 (x.toNat * 2 ^ 4) = [x.toNat / 4, x.toNat % 4 * 16] := by
    simp only [sextets, Digits.fixed_succ, Digits.fixed_zero, List.reverse_cons, List.reverse_nil,
      List.nil_append, List.cons_append, List.cons.injEq, and_true]
    omega
  rw [encode, hsextets]
  rfl

/-- **Induction by groups**: nothing, one byte, two, or a whole group in front of the others. -/
theorem group_induction {motive : List UInt8 → Prop} (nil : motive []) (one : ∀ x, motive [x])
    (two : ∀ x y, motive [x, y])
    (group : ∀ x y z bytes, motive bytes → motive (x :: y :: z :: bytes)) :
    ∀ bytes, motive bytes
  | [] => nil
  | [x] => one x
  | [x, y] => two x y
  | x :: y :: z :: bytes => group x y z bytes (group_induction nil one two group bytes)

end Base64
