import Mathlib.Data.Nat.Digits.Defs

/-!
# Digits in a fixed number

The digits of a number in a base, the lowest first, as a loop finds them that divides a given number of
times: `fixed base count n`. There are always `count` of them, and they determine the number as long as
it has no more.
-/

namespace Digits

/-! ## A fixed number of digits -/

/-- The lowest `count` digits of `n`. -/
def fixed (base : Nat) : Nat → Nat → List Nat
  | 0, _ => []
  | count + 1, n => n % base :: fixed base count (n / base)

@[simp] theorem fixed_zero (base n : Nat) : fixed base 0 n = [] := rfl

@[simp] theorem fixed_succ (base count n : Nat) :
    fixed base (count + 1) n = n % base :: fixed base count (n / base) := rfl

@[simp] theorem length_fixed (base count n : Nat) : (fixed base count n).length = count := by
  induction count generalizing n with
  | zero => rfl
  | succ count ih => rw [fixed_succ, List.length_cons, ih]

theorem lt_of_mem_fixed {base count n : Nat} (hbase : 0 < base) :
    ∀ d ∈ fixed base count n, d < base := by
  induction count generalizing n with
  | zero =>
      intro d hd
      cases hd
  | succ count ih =>
      intro d hd
      rcases List.mem_cons.mp hd with rfl | hrest
      · exact Nat.mod_lt n hbase
      · exact ih d hrest

/-! ## The number from its digits -/

/-- The value of the digits is the number, or what is left of it. -/
theorem ofDigits_fixed (base count n : Nat) :
    Nat.ofDigits base (fixed base count n) = n % base ^ count := by
  induction count generalizing n with
  | zero => simp [Nat.mod_one]
  | succ count ih =>
      rw [fixed_succ, Nat.ofDigits_cons, ih, Nat.pow_succ', Nat.mod_mul]

/-- **Digits determine the number** when there are enough of them. -/
theorem fixed_injective {base count m n : Nat} (hm : m < base ^ count) (hn : n < base ^ count)
    (h : fixed base count m = fixed base count n) : m = n := by
  have hvalue := congrArg (Nat.ofDigits base) h
  rwa [ofDigits_fixed, ofDigits_fixed, Nat.mod_eq_of_lt hm, Nat.mod_eq_of_lt hn] at hvalue

/-- Written with distinct symbols, digits still determine the number. -/
theorem map_fixed_injective {α : Type*} {base count m n : Nat} {symbol : Nat → α}
    (hbase : 0 < base) (hsymbol : ∀ d < base, ∀ e < base, symbol d = symbol e → d = e)
    (hm : m < base ^ count) (hn : n < base ^ count)
    (h : (fixed base count m).map symbol = (fixed base count n).map symbol) : m = n := by
  refine fixed_injective hm hn ?_
  clear hm hn
  induction count generalizing m n with
  | zero => rfl
  | succ count ih =>
      simp only [fixed_succ, List.map_cons, List.cons.injEq] at h ⊢
      exact ⟨hsymbol _ (Nat.mod_lt m hbase) _ (Nat.mod_lt n hbase) h.1, ih h.2⟩

end Digits
