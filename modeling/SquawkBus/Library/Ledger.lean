import Mathlib.Data.List.Infix
import Mathlib.Tactic.Common

/-!
# Reference counts as an account

The meaning of reference counting, apart from any data structure: holders acquire and release
keys, and a holder may drop everything it holds at once. `Ledger.balance` is the number of
references each holder then has on each key. A release that finds no reference is ignored.
-/

namespace Ledger

/-! ## Entries -/

/-- One entry of the account, made by the holder `i`. -/
inductive Op (ι κ : Type) where
  | acquire (i : ι) (k : κ)
  | release (i : ι) (k : κ)
  | dropAll (i : ι)

variable {ι κ : Type} [DecidableEq ι] [DecidableEq κ]

/-- The references held after one more entry. -/
def apply (b : ι → κ → Nat) : Op ι κ → ι → κ → Nat
  | .acquire i k => fun i' k' => if i = i' ∧ k = k' then b i' k' + 1 else b i' k'
  | .release i k => fun i' k' => if i = i' ∧ k = k' then b i' k' - 1 else b i' k'
  | .dropAll i => fun i' k' => if i = i' then 0 else b i' k'

theorem apply_acquire (b : ι → κ → Nat) (i i' : ι) (k k' : κ) :
    apply b (.acquire i k) i' k' = if i = i' ∧ k = k' then b i' k' + 1 else b i' k' := rfl

theorem apply_release (b : ι → κ → Nat) (i i' : ι) (k k' : κ) :
    apply b (.release i k) i' k' = if i = i' ∧ k = k' then b i' k' - 1 else b i' k' := rfl

theorem apply_dropAll (b : ι → κ → Nat) (i i' : ι) (k : κ) :
    apply b (.dropAll i) i' k = if i = i' then 0 else b i' k := rfl

/-- A release without a reference to release is no entry at all. -/
theorem apply_release_of_zero {b : ι → κ → Nat} {i : ι} {k : κ} (h : b i k = 0) :
    apply b (.release i k) = b := by
  funext i' k'
  rw [apply_release]
  split
  · next heq =>
    obtain ⟨rfl, rfl⟩ := heq
    omega
  · rfl

/-! ## Balances -/

/-- The references held after a list of entries. -/
def balance (ops : List (Op ι κ)) : ι → κ → Nat := ops.foldl apply fun _ _ => 0

def Op.isAcquire : Op ι κ → Bool
  | .acquire _ _ => true
  | _ => false

/-- How many entries are acquisitions. -/
def acquires (ops : List (Op ι κ)) : Nat := ops.countP Op.isAcquire

@[simp] theorem balance_nil : balance ([] : List (Op ι κ)) = fun _ _ => 0 := rfl

@[simp] theorem balance_snoc (ops : List (Op ι κ)) (op : Op ι κ) :
    balance (ops ++ [op]) = apply (balance ops) op := by
  simp [balance]

omit [DecidableEq ι] [DecidableEq κ] in
theorem acquires_snoc (ops : List (Op ι κ)) (op : Op ι κ) :
    acquires (ops ++ [op]) = acquires ops + if op.isAcquire then 1 else 0 := by
  simp [acquires, List.countP_append, List.countP_cons]

omit [DecidableEq ι] [DecidableEq κ] in
theorem acquires_mono {pre ops : List (Op ι κ)} (h : pre <+: ops) :
    acquires pre ≤ acquires ops :=
  h.sublist.countP_le

/-! ## How large they get -/

/-- An entry raises a balance by at most one, and only an acquisition raises it. -/
theorem apply_le (b : ι → κ → Nat) (op : Op ι κ) (i : ι) (k : κ) :
    apply b op i k ≤ b i k + if op.isAcquire then 1 else 0 := by
  cases op <;> simp only [apply, Op.isAcquire] <;> split <;> simp

/-- No balance exceeds the number of acquisitions. -/
theorem balance_le_acquires (ops : List (Op ι κ)) (i : ι) (k : κ) :
    balance ops i k ≤ acquires ops := by
  induction ops using List.reverseRecOn with
  | nil => simp
  | append_singleton ops op ih =>
      calc balance (ops ++ [op]) i k
          = apply (balance ops) op i k := by rw [balance_snoc]
        _ ≤ balance ops i k + if op.isAcquire then 1 else 0 := apply_le _ _ i k
        _ ≤ acquires ops + if op.isAcquire then 1 else 0 := Nat.add_le_add_right ih _
        _ = acquires (ops ++ [op]) := (acquires_snoc ops op).symm

/-- Along a run with fewer than `n` acquisitions every balance stays below `n`. -/
theorem balance_lt {pre ops : List (Op ι κ)} {n : Nat} (hn : acquires ops < n)
    (h : pre <+: ops) (i : ι) (k : κ) : balance pre i k < n :=
  Nat.lt_of_le_of_lt (Nat.le_trans (balance_le_acquires pre i k) (acquires_mono h)) hn

end Ledger
