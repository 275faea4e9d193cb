import Std.Data.ExtTreeMap
import Std.Data.ExtTreeSet
import Mathlib.Data.List.Nodup
import Mathlib.Data.Option.Basic
import Mathlib.Tactic.Tauto

/-!
# Ordered maps, tables and indexes

Ordered maps and sets are the extensional search trees of `Std`: iteration follows the key order,
and two of them are equal when they have the same entries. On top of them this file has the two
shapes that bookkeeping code builds by hand:

* a *table*, a map whose values are maps, read cell by cell through `cell`, with
  `dropCell` erasing one cell and the whole row once it is empty;
* an *index*, a map whose values are sets, read through `Index.Has`, with `Index.add` and
  `Index.remove`.

Each operation comes with the one lemma that says which cells it changes.
-/

set_option linter.unusedSectionVars false

open Std (TransOrd LawfulEqOrd)

abbrev OrdMap (κ ν : Type) [Ord κ] := Std.ExtTreeMap κ ν compare
abbrev OrdSet (κ : Type) [Ord κ] := Std.ExtTreeSet κ compare

variable {κ ι ν : Type} [Ord κ] [TransOrd κ] [LawfulEqOrd κ] [DecidableEq κ]
variable [Ord ι] [TransOrd ι] [LawfulEqOrd ι] [DecidableEq ι]

/-! ## Single entries, with key equality instead of comparison -/

namespace OrdMap

theorem get_insert (m : OrdMap κ ν) (k k' : κ) (v : ν) :
    (m.insert k v)[k']? = if k = k' then some v else m[k']? := by
  simp [Std.ExtTreeMap.getElem?_insert]

theorem get_erase (m : OrdMap κ ν) (k k' : κ) :
    (m.erase k)[k']? = if k = k' then none else m[k']? := by
  simp [Std.ExtTreeMap.getElem?_erase]

/-- What is found after an insertion is the new value, or was there. -/
theorem get_of_insert {m : OrdMap κ ν} {k k' : κ} {v w : ν} (h : (m.insert k v)[k']? = some w) :
    (k' = k ∧ w = v) ∨ (k' ≠ k ∧ m[k']? = some w) := by
  rw [get_insert] at h
  split at h
  · next hk => exact .inl ⟨hk.symm, (Option.some.inj h).symm⟩
  · next hk => exact .inr ⟨Ne.symm hk, h⟩

/-- What is found after an erasure was there, at another key. -/
theorem get_of_erase {m : OrdMap κ ν} {k k' : κ} {v : ν} (h : (m.erase k)[k']? = some v) :
    k ≠ k' ∧ m[k']? = some v := by
  rw [get_erase] at h
  split at h
  · cases h
  · next hk => exact ⟨hk, h⟩

theorem get_insertIfNew (m : OrdMap κ ν) (k k' : κ) (v : ν) :
    (m.insertIfNew k v)[k']? = if k = k' ∧ k ∉ m then some v else m[k']? := by
  simp [Std.ExtTreeMap.getElem?_insertIfNew]

theorem mem_iff_get {m : OrdMap κ ν} {k : κ} : k ∈ m ↔ ∃ v, m[k]? = some v := by
  rw [Std.ExtTreeMap.mem_iff_isSome_getElem?, Option.isSome_iff_exists]

/-- What is left after erasing a key is empty when there is no other key. -/
theorem isEmpty_erase_iff {m : OrdMap κ ν} {k : κ} :
    (m.erase k).isEmpty ↔ ∀ k', k ≠ k' → m[k']? = none := by
  rw [Std.ExtTreeMap.isEmpty_iff, Std.ExtTreeMap.eq_empty_iff_forall_not_mem]
  constructor
  · intro h k' hk
    have hmem := h k'
    rw [mem_iff_get, get_erase, if_neg hk] at hmem
    exact Option.eq_none_iff_forall_ne_some.mpr fun v hv => hmem ⟨v, hv⟩
  · intro h k' hmem
    obtain ⟨v, hv⟩ := mem_iff_get.mp hmem
    rw [get_erase] at hv
    split at hv
    · cases hv
    · next hk => rw [h k' hk] at hv; cases hv

end OrdMap

theorem OrdMap.get_foldl_erase {l : List κ} {m : OrdMap κ ν} {k : κ} :
    (l.foldl (fun m k => m.erase k) m)[k]? = if k ∈ l then none else m[k]? := by
  induction l generalizing m with
  | nil => simp
  | cons a l ih =>
      rw [List.foldl_cons, ih, OrdMap.get_erase]
      by_cases hk : a = k
      · simp [hk]
      · simp [hk, Ne.symm hk]

theorem OrdSet.mem_foldl_insert {l : List κ} {found : OrdSet κ} {k : κ} :
    k ∈ l.foldl (fun found k => found.insert k) found ↔ k ∈ l ∨ k ∈ found := by
  induction l generalizing found with
  | nil => simp
  | cons a l ih =>
      rw [List.foldl_cons, ih, Std.ExtTreeSet.mem_insert]
      simp only [Std.compare_eq_iff_eq, List.mem_cons, eq_comm (a := k)]
      tauto

/-! ## Iteration visits everything once -/

theorem OrdSet.nodup_toList (s : OrdSet κ) : s.toList.Nodup := by
  refine List.Pairwise.imp ?_ Std.ExtTreeSet.distinct_toList
  intro a b h heq
  exact h (Std.compare_eq_iff_eq.mpr heq)

theorem OrdMap.nodup_toList (m : OrdMap κ ν) : m.toList.Nodup := by
  refine List.Nodup.of_map Prod.fst ?_
  rw [Std.ExtTreeMap.map_fst_toList_eq_keys]
  exact Std.ExtTreeMap.nodup_keys

/-! ## Maps of a list of entries -/

namespace OrdMap

/-- The map of a list of entries, put in one after the other. -/
def ofEntries (l : List (κ × ν)) : OrdMap κ ν := l.foldl (fun m e => m.insert e.1 e.2) ∅

/-- Entries with keys of their own are all found, and with them what was there before. -/
theorem get_foldl_insert {l : List (κ × ν)} {m : OrdMap κ ν} (hl : (l.map Prod.fst).Nodup)
    (hm : ∀ e ∈ l, m[e.1]? = none) (k : κ) (v : ν) :
    (l.foldl (fun m e => m.insert e.1 e.2) m)[k]? = some v ↔ m[k]? = some v ∨ (k, v) ∈ l := by
  induction l generalizing m with
  | nil => simp
  | cons e l ih =>
      rw [List.map_cons, List.nodup_cons] at hl
      have hkey : ∀ e' ∈ l, e.1 ≠ e'.1 := by
        intro e' he' heq
        exact hl.1 (heq ▸ List.mem_map_of_mem he')
      have hm' : ∀ e' ∈ l, (m.insert e.1 e.2)[e'.1]? = none := by
        intro e' he'
        rw [get_insert, if_neg (hkey e' he')]
        exact hm e' (List.mem_cons_of_mem e he')
      rw [List.foldl_cons, ih hl.2 hm', get_insert, List.mem_cons]
      by_cases hk : e.1 = k
      · subst hk
        have hnew : m[e.1]? = none := hm e List.mem_cons_self
        simp [hnew, Prod.ext_iff, eq_comm]
      · have hne : (k, v) ≠ e := by
          rintro rfl
          exact hk rfl
        simp [hk, hne]

/-- **A map holds its entries**, in some order. -/
theorem perm_toList_ofEntries {l : List (κ × ν)} (hl : (l.map Prod.fst).Nodup) :
    (ofEntries l).toList.Perm l := by
  refine (List.perm_ext_iff_of_nodup (nodup_toList _) hl.of_map).mpr fun e => ?_
  have hget := get_foldl_insert (m := ∅) hl (by simp) e.1 e.2
  rw [Std.ExtTreeMap.mem_toList_iff_getElem?_eq_some]
  simpa [ofEntries] using hget
end OrdMap

/-- What only one round of a loop yields is yielded as often as in that round, if it comes. -/
theorem List.count_flatMap_of_only {α β : Type*} [DecidableEq α] [DecidableEq β] {l : List α}
    (hl : l.Nodup) {f : α → List β} {a : α} {b : β} (honly : ∀ a' ∈ l, a' ≠ a → b ∉ f a') :
    (l.flatMap f).count b = if a ∈ l then (f a).count b else 0 := by
  induction l with
  | nil => rfl
  | cons a' l ih =>
      obtain ⟨hnew, hl⟩ := List.nodup_cons.mp hl
      have hrest := ih hl fun c hc => honly c (List.mem_cons_of_mem a' hc)
      rw [List.flatMap_cons, List.count_append, hrest]
      by_cases ha : a' = a
      · subst ha
        simp [hnew]
      · have hzero : (f a').count b = 0 := List.count_eq_zero.mpr (honly a' (by simp) ha)
        simp [hzero, Ne.symm ha]

/-! ## Tables -/

namespace Table

/-- The value stored in row `k` under `i`. -/
def cell (m : OrdMap κ (OrdMap ι ν)) (k : κ) (i : ι) : Option ν := m[k]?.bind (·[i]?)

@[simp] theorem cell_empty (k : κ) (i : ι) : cell (∅ : OrdMap κ (OrdMap ι ν)) k i = none := by
  simp [cell]

theorem cell_eq_some {m : OrdMap κ (OrdMap ι ν)} {k : κ} {i : ι} {v : ν} :
    cell m k i = some v ↔ ∃ row, m[k]? = some row ∧ row[i]? = some v := by
  simp [cell, Option.bind_eq_some_iff]

theorem cell_of_row {m : OrdMap κ (OrdMap ι ν)} {k : κ} {row : OrdMap ι ν}
    (h : m[k]? = some row) (i : ι) : cell m k i = row[i]? := by
  simp [cell, h]

theorem cell_of_no_row {m : OrdMap κ (OrdMap ι ν)} {k : κ} (h : m[k]? = none) (i : ι) :
    cell m k i = none := by
  simp [cell, h]

theorem cell_insert (m : OrdMap κ (OrdMap ι ν)) (k k' : κ) (row : OrdMap ι ν) (i : ι) :
    cell (m.insert k row) k' i = if k = k' then row[i]? else cell m k' i := by
  unfold cell
  rw [OrdMap.get_insert]
  split <;> rfl

theorem cell_erase (m : OrdMap κ (OrdMap ι ν)) (k k' : κ) (i : ι) :
    cell (m.erase k) k' i = if k = k' then none else cell m k' i := by
  unfold cell
  rw [OrdMap.get_erase]
  split <;> rfl

/-- No row is present without a cell. -/
def NoEmptyRow (m : OrdMap κ (OrdMap ι ν)) : Prop :=
  ∀ (k : κ) (row : OrdMap ι ν), m[k]? = some row → row ≠ ∅

theorem noEmptyRow_empty : NoEmptyRow (∅ : OrdMap κ (OrdMap ι ν)) := by
  intro k row h
  simp at h

theorem NoEmptyRow.insert {m : OrdMap κ (OrdMap ι ν)} (h : NoEmptyRow m) (k : κ)
    {row : OrdMap ι ν} (hrow : row ≠ ∅) : NoEmptyRow (m.insert k row) := by
  intro k' row' hget
  rw [OrdMap.get_insert] at hget
  split at hget
  · cases hget; exact hrow
  · exact h k' row' hget

theorem NoEmptyRow.erase {m : OrdMap κ (OrdMap ι ν)} (h : NoEmptyRow m) (k : κ) :
    NoEmptyRow (m.erase k) := by
  intro k' row' hget
  exact h k' row' (OrdMap.get_of_erase hget).2

/-- In a table without empty rows a row is present exactly when it has a cell. -/
theorem NoEmptyRow.mem_iff {m : OrdMap κ (OrdMap ι ν)} (h : NoEmptyRow m) {k : κ} :
    k ∈ m ↔ ∃ i, (cell m k i).isSome := by
  rw [OrdMap.mem_iff_get]
  constructor
  · rintro ⟨row, hrow⟩
    obtain ⟨i, hi⟩ : ∃ i, i ∈ row := by
      by_contra hno
      exact h k row hrow (Std.ExtTreeMap.eq_empty_iff_forall_not_mem.mpr fun i hi => hno ⟨i, hi⟩)
    obtain ⟨v, hv⟩ := OrdMap.mem_iff_get.mp hi
    exact ⟨i, by simp [cell_of_row hrow, hv]⟩
  · rintro ⟨i, hi⟩
    obtain ⟨v, hv⟩ := Option.isSome_iff_exists.mp hi
    obtain ⟨row, hrow, -⟩ := cell_eq_some.mp hv
    exact ⟨row, hrow⟩

/-! ### Dropping cells -/

/-- Erase the cell of `i` in row `k`, and the row with it when nothing else is left in it. -/
def dropCell (i : ι) (m : OrdMap κ (OrdMap ι ν)) (k : κ) : OrdMap κ (OrdMap ι ν) :=
  match m[k]? with
  | none => m
  | some row => if (row.erase i).isEmpty then m.erase k else m.insert k (row.erase i)

theorem cell_dropCell (i i' : ι) (m : OrdMap κ (OrdMap ι ν)) (k k' : κ) :
    cell (dropCell i m k) k' i' = if k = k' ∧ i = i' then none else cell m k' i' := by
  unfold dropCell
  split
  · next hrow =>
    by_cases hk : k = k'
    · subst hk; simp [cell_of_no_row hrow]
    · simp [hk]
  · next row hrow =>
    split
    · next hempty =>
      rw [cell_erase]
      by_cases hk : k = k'
      · subst hk
        by_cases hi : i = i'
        · simp [hi]
        · simp [hi, cell_of_row hrow, OrdMap.isEmpty_erase_iff.mp hempty i' hi]
      · simp [hk]
    · rw [cell_insert, OrdMap.get_erase]
      by_cases hk : k = k'
      · subst hk
        by_cases hi : i = i' <;> simp [hi, cell_of_row hrow]
      · simp [hk]

theorem NoEmptyRow.dropCell {m : OrdMap κ (OrdMap ι ν)} (h : NoEmptyRow m) (i : ι) (k : κ) :
    NoEmptyRow (dropCell i m k) := by
  unfold Table.dropCell
  split
  · exact h
  · split
    · exact h.erase k
    · next hne => exact h.insert k (by rwa [Std.ExtTreeMap.isEmpty_iff] at hne)

/-- The outcomes of giving up a cell: the `same` where there is no cell or its value is `kept`; else
it matters whether the cell is the `last` of its row or the row is `shared`. -/
def release {β : Type} (m : OrdMap κ (OrdMap ι ν)) (k : κ) (i : ι) (kept : ν → Prop)
    [DecidablePred kept] (same last shared : β) : β :=
  match m[k]? with
  | none => same
  | some row =>
      match row[i]? with
      | none => same
      | some v => if kept v then same else if (row.erase i).isEmpty then last else shared

theorem release_cases {β : Type} (m : OrdMap κ (OrdMap ι ν)) (k : κ) (i : ι) (kept : ν → Prop)
    [DecidablePred kept] (same last shared : β) :
    (cell m k i = none ∧ release m k i kept same last shared = same) ∨
    (∃ v, cell m k i = some v ∧ kept v ∧ release m k i kept same last shared = same) ∨
    (∃ v, cell m k i = some v ∧ ¬ kept v ∧ (∀ i', i ≠ i' → cell m k i' = none) ∧
      release m k i kept same last shared = last) ∨
    (∃ v, cell m k i = some v ∧ ¬ kept v ∧ (∃ i', i ≠ i' ∧ (cell m k i').isSome) ∧
      release m k i kept same last shared = shared) := by
  unfold release
  cases hrow : m[k]? with
  | none => exact .inl ⟨cell_of_no_row hrow i, rfl⟩
  | some row =>
      simp only [cell_of_row hrow]
      cases hv : row[i]? with
      | none => exact .inl ⟨rfl, rfl⟩
      | some v =>
          simp only []
          split
          · next hkept => exact .inr (.inl ⟨v, rfl, hkept, rfl⟩)
          · next hkept =>
            split
            · next hempty =>
              exact .inr (.inr (.inl ⟨v, rfl, hkept, OrdMap.isEmpty_erase_iff.mp hempty, rfl⟩))
            · next hempty =>
              refine .inr (.inr (.inr ⟨v, rfl, hkept, ?_, rfl⟩))
              rw [OrdMap.isEmpty_erase_iff] at hempty
              obtain ⟨i', hne⟩ := not_forall.mp hempty
              obtain ⟨hi, hget⟩ := Classical.not_imp.mp hne
              exact ⟨i', hi, Option.isSome_iff_ne_none.mpr hget⟩

/-- Erasing `i` from a list of rows clears exactly its cells in those rows. -/
theorem cell_foldl_dropCell (i i' : ι) (ks : List κ) (m : OrdMap κ (OrdMap ι ν)) (k' : κ) :
    cell (ks.foldl (dropCell i) m) k' i' = if k' ∈ ks ∧ i = i' then none else cell m k' i' := by
  induction ks generalizing m with
  | nil => simp
  | cons k ks ih =>
      rw [List.foldl_cons, ih, cell_dropCell]
      by_cases hi : i = i'
      · by_cases hk : k = k'
        · simp [hk, hi]
        · simp [hi, hk, Ne.symm hk]
      · simp [hi]

/-- Erasing cells adds no row. -/
theorem mem_of_mem_foldl_dropCell {i : ι} {ks : List κ} {m : OrdMap κ (OrdMap ι ν)} {k' : κ}
    (h : k' ∈ ks.foldl (dropCell i) m) : k' ∈ m := by
  induction ks generalizing m with
  | nil => exact h
  | cons k ks ih =>
      have hround := ih h
      unfold dropCell at hround
      split at hround
      · exact hround
      · next row hrow =>
        split at hround
        · exact Std.ExtTreeMap.mem_of_mem_erase hround
        · by_cases hk : k = k'
          · exact hk ▸ OrdMap.mem_iff_get.mpr ⟨row, hrow⟩
          · simpa [hk] using hround

theorem NoEmptyRow.foldl_dropCell {m : OrdMap κ (OrdMap ι ν)} (h : NoEmptyRow m) (i : ι)
    (ks : List κ) : NoEmptyRow (ks.foldl (Table.dropCell i) m) := by
  induction ks generalizing m with
  | nil => exact h
  | cons k ks ih => exact ih (h.dropCell i k)

end Table

/-! ## Indexes -/

namespace Index

/-- `v` is filed under `k`. -/
def Has (m : OrdMap κ (OrdSet ι)) (k : κ) (v : ι) : Prop := ∃ s, m[k]? = some s ∧ v ∈ s

/-- File `v` under `k`, making the entry of `k` when there is none. -/
def add (m : OrdMap κ (OrdSet ι)) (k : κ) (v : ι) : OrdMap κ (OrdSet ι) :=
  match m[k]? with
  | none => m.insert k (Std.ExtTreeSet.insert ∅ v)
  | some s => m.insert k (s.insert v)

/-- Take `v` out of the entry of `k`, and the entry away when it is left empty. -/
def remove (m : OrdMap κ (OrdSet ι)) (k : κ) (v : ι) : OrdMap κ (OrdSet ι) :=
  match m[k]? with
  | none => m
  | some s => if (s.erase v).isEmpty then m.erase k else m.insert k (s.erase v)

instance decidableHas (m : OrdMap κ (OrdSet ι)) (k : κ) (v : ι) : Decidable (Has m k v) :=
  decidable_of_iff (m[k]?.any fun s => s.contains v) <| by
    cases h : m[k]? <;> simp [Has, h]

@[simp] theorem not_has_empty (k : κ) (v : ι) : ¬ Has (∅ : OrdMap κ (OrdSet ι)) k v := by
  rintro ⟨s, hs, -⟩
  simp at hs

theorem has_of_entry {m : OrdMap κ (OrdSet ι)} {k : κ} {s : OrdSet ι} (h : m[k]? = some s)
    {v : ι} : Has m k v ↔ v ∈ s := by
  simp [Has, h]

/-! ### Single entries -/

theorem has_insert (m : OrdMap κ (OrdSet ι)) (k k' : κ) (s : OrdSet ι) (v : ι) :
    Has (m.insert k s) k' v ↔ if k = k' then v ∈ s else Has m k' v := by
  unfold Has
  rw [OrdMap.get_insert]
  split <;> simp

theorem has_erase (m : OrdMap κ (OrdSet ι)) (k k' : κ) (v : ι) :
    Has (m.erase k) k' v ↔ k ≠ k' ∧ Has m k' v := by
  unfold Has
  rw [OrdMap.get_erase]
  by_cases hk : k = k' <;> simp [hk]

theorem has_add (m : OrdMap κ (OrdSet ι)) (k k' : κ) (v v' : ι) :
    Has (add m k v) k' v' ↔ (k = k' ∧ v = v') ∨ Has m k' v' := by
  unfold add
  split
  · next hnone =>
    rw [has_insert]
    by_cases hk : k = k'
    · subst hk
      have hno : ¬ Has m k v' := by rintro ⟨s, hs, -⟩; simp [hnone] at hs
      simp [hno, Std.ExtTreeSet.mem_insert]
    · simp [hk]
  · next s hs =>
    rw [has_insert]
    by_cases hk : k = k'
    · subst hk
      simp [has_of_entry hs, Std.ExtTreeSet.mem_insert]
    · simp [hk]

theorem has_remove (m : OrdMap κ (OrdSet ι)) (k k' : κ) (v v' : ι) :
    Has (remove m k v) k' v' ↔ ¬ (k = k' ∧ v = v') ∧ Has m k' v' := by
  unfold remove
  split
  · next hnone =>
    refine ⟨fun h => ⟨?_, h⟩, fun h => h.2⟩
    rintro ⟨rfl, -⟩
    obtain ⟨s, hs, -⟩ := h
    simp [hnone] at hs
  · next s hs =>
    have hmem : v' ∈ s.erase v ↔ v ≠ v' ∧ v' ∈ s := by simp [Std.ExtTreeSet.mem_erase]
    split
    · next hempty =>
      rw [Std.ExtTreeSet.isEmpty_iff] at hempty
      rw [has_erase]
      by_cases hk : k = k'
      · subst hk
        have hno : ¬ (v ≠ v' ∧ v' ∈ s) := by
          rw [← hmem, hempty]
          exact Std.ExtTreeSet.not_mem_empty
        rw [has_of_entry hs]
        tauto
      · simp [hk]
    · rw [has_insert]
      by_cases hk : k = k'
      · subst hk
        simp only [if_true, true_and, has_of_entry hs]
        exact hmem
      · simp [hk]

/-! ### What adding and removing leave -/

theorem mem_add {m : OrdMap κ (OrdSet ι)} {k k' : κ} {v : ι} :
    k' ∈ add m k v ↔ k = k' ∨ k' ∈ m := by
  unfold add
  split <;> simp

theorem mem_of_mem_remove {m : OrdMap κ (OrdSet ι)} {k k' : κ} {v : ι}
    (h : k' ∈ remove m k v) : k' ∈ m := by
  unfold remove at h
  split at h
  · exact h
  · next s hs =>
    split at h
    · exact Std.ExtTreeMap.mem_of_mem_erase h
    · by_cases hk : k = k'
      · subst hk; exact OrdMap.mem_iff_get.mpr ⟨s, hs⟩
      · simpa [hk] using h

/-- Filing under `k` leaves the other entries as they are. -/
theorem get_add_of_ne {k k' : κ} (hk : k ≠ k') (m : OrdMap κ (OrdSet ι)) (v : ι) :
    (add m k v)[k']? = m[k']? := by
  unfold add
  split <;> rw [OrdMap.get_insert, if_neg hk]

theorem get_remove_of_ne {k k' : κ} (hk : k ≠ k') (m : OrdMap κ (OrdSet ι)) (v : ι) :
    (remove m k v)[k']? = m[k']? := by
  unfold remove
  split
  · rfl
  · split
    · rw [OrdMap.get_erase, if_neg hk]
    · rw [OrdMap.get_insert, if_neg hk]

/-- What is filed already is not filed again. -/
theorem add_of_has {m : OrdMap κ (OrdSet ι)} {k : κ} {v : ι} (h : Has m k v) : add m k v = m := by
  obtain ⟨s, hs, hv⟩ := h
  have hset : s.insert v = s := by
    refine Std.ExtTreeSet.ext_mem fun a => ?_
    rw [Std.ExtTreeSet.mem_insert, Std.compare_eq_iff_eq]
    exact ⟨fun ha => ha.elim (fun heq => heq ▸ hv) id, .inr⟩
  unfold add
  rw [hs]
  show m.insert k (s.insert v) = m
  refine Std.ExtTreeMap.ext_getElem? fun k' => ?_
  rw [hset, OrdMap.get_insert]
  split
  · next hk => rw [← hk, hs]
  · rfl

@[simp] theorem add_add (m : OrdMap κ (OrdSet ι)) (k : κ) (v : ι) :
    add (add m k v) k v = add m k v :=
  add_of_has ((has_add m k k v v).mpr (.inl ⟨rfl, rfl⟩))

/-! ### Entries that are not empty -/

/-- No entry is present without a value. -/
def NoEmptyEntry (m : OrdMap κ (OrdSet ι)) : Prop :=
  ∀ (k : κ) (s : OrdSet ι), m[k]? = some s → ∃ v, v ∈ s

theorem noEmptyEntry_empty : NoEmptyEntry (∅ : OrdMap κ (OrdSet ι)) := by
  intro k s h
  simp at h

theorem NoEmptyEntry.add {m : OrdMap κ (OrdSet ι)} (h : NoEmptyEntry m) (k : κ) (v : ι) :
    NoEmptyEntry (add m k v) := by
  intro k' s' hget
  unfold Index.add at hget
  split at hget
  · rw [OrdMap.get_insert] at hget
    split at hget
    · cases hget
      exact ⟨v, by simp⟩
    · exact h k' s' hget
  · rw [OrdMap.get_insert] at hget
    split at hget
    · cases hget
      exact ⟨v, by simp⟩
    · exact h k' s' hget

theorem NoEmptyEntry.erase {m : OrdMap κ (OrdSet ι)} (h : NoEmptyEntry m) (k : κ) :
    NoEmptyEntry (m.erase k) := by
  intro k' s' hget
  exact h k' s' (OrdMap.get_of_erase hget).2

end Index

/-! ## A table with a reverse index

Bookkeeping code keeps, next to a table, an index that lists for each `i` the rows it has a cell
in, and removes `i` by going through that list. `Mirrored` says that nothing is missing from the
list, `Absent` that neither side mentions `i`. -/

namespace Table

/-- Every row in which `i` has a cell is filed under `i`. -/
def Mirrored (m : OrdMap κ (OrdMap ι ν)) (r : OrdMap ι (OrdSet κ)) (i : ι) : Prop :=
  ∀ k, (cell m k i).isSome → Index.Has r i k

/-- `i` has neither a cell nor an entry. -/
structure Absent (m : OrdMap κ (OrdMap ι ν)) (r : OrdMap ι (OrdSet κ)) (i : ι) : Prop where
  cells : ∀ k, cell m k i = none
  entry : i ∉ r

/-! ### Closing the rows of an index -/

/-- The tables after `j` has been removed through its entry: it has lost the cells in the rows its
entry listed, and the entry. -/
structure Closed (m m' : OrdMap κ (OrdMap ι ν)) (r r' : OrdMap ι (OrdSet κ)) (j : ι) : Prop where
  cells : ∀ k i, cell m' k i = if Index.Has r j k ∧ j = i then none else cell m k i
  entries : ∀ i, r'[i]? = if j = i then none else r[i]?

variable {m m' : OrdMap κ (OrdMap ι ν)} {r r' : OrdMap ι (OrdSet κ)} {i j : ι}

@[simp] theorem mirrored_empty : Mirrored (∅ : OrdMap κ (OrdMap ι ν)) r i := by
  intro k h
  simp at h

theorem Closed.has (h : Closed m m' r r' j) (i : ι) (k : κ) :
    Index.Has r' i k ↔ j ≠ i ∧ Index.Has r i k := by
  unfold Index.Has
  rw [h.entries]
  by_cases hi : j = i <;> simp [hi]

theorem closed_of_no_entry (h : r[j]? = none) : Closed m m r r j where
  cells k i := by
    have hno : ¬ Index.Has r j k := by
      rintro ⟨ks, hks, -⟩
      rw [h] at hks
      cases hks
    rw [if_neg fun heq => hno heq.1]
  entries i := by
    split
    · next heq => rw [← heq, h]
    · rfl

/-- A removal goes through the rows of its entry. -/
theorem closed_of_entry {ks : OrdSet κ} (h : r[j]? = some ks) :
    Closed m (ks.toList.foldl (dropCell j) m) r (r.erase j) j where
  cells k i := by
    simp only [cell_foldl_dropCell, Index.has_of_entry h, Std.ExtTreeSet.mem_toList]
  entries i := OrdMap.get_erase r j i

theorem Mirrored.erase_remove (h : Mirrored m r i) (j : ι) (k : κ) :
    Mirrored (m.erase k) (Index.remove r j k) i := by
  intro k' hcell
  rw [cell_erase] at hcell
  split at hcell
  · cases hcell
  · next hne => exact (Index.has_remove _ _ _ _ _).mpr ⟨fun heq => hne heq.2, h k' hcell⟩

theorem Mirrored.closed (h : Mirrored m r i) (hclosed : Closed m m' r r' j) :
    Mirrored m' r' i := by
  intro k hcell
  rw [hclosed.cells] at hcell
  split at hcell
  · cases hcell
  · next hno =>
    refine (hclosed.has i k).mpr ⟨?_, h k hcell⟩
    rintro rfl
    exact hno ⟨h k hcell, rfl⟩

/-- **Removal through a complete list leaves nothing behind.** -/
theorem Mirrored.absent (h : Mirrored m r i) (hclosed : Closed m m' r r' i) : Absent m' r' i where
  cells k := by
    rw [hclosed.cells]
    split
    · rfl
    · next hno =>
      by_contra hcell
      exact hno ⟨h k (Option.isSome_iff_ne_none.mpr hcell), rfl⟩
  entry hmem := by
    obtain ⟨s, hs⟩ := OrdMap.mem_iff_get.mp hmem
    rw [hclosed.entries, if_pos rfl] at hs
    cases hs

theorem Absent.remove (h : Absent m r i) (j : ι) (k : κ) : Absent m (Index.remove r j k) i :=
  ⟨h.cells, fun hmem => h.entry (Index.mem_of_mem_remove hmem)⟩

theorem Absent.erase_remove (h : Absent m r i) (j : ι) (k : κ) :
    Absent (m.erase k) (Index.remove r j k) i where
  cells k' := by
    rw [cell_erase]
    split
    · rfl
    · exact h.cells k'
  entry := (h.remove j k).entry

theorem Absent.closed (h : Absent m r i) (hclosed : Closed m m' r r' j) : Absent m' r' i where
  cells k := by
    rw [hclosed.cells]
    split
    · rfl
    · exact h.cells k
  entry hmem := by
    obtain ⟨s, hs⟩ := OrdMap.mem_iff_get.mp hmem
    rw [hclosed.entries] at hs
    split at hs
    · cases hs
    · exact h.entry (OrdMap.mem_iff_get.mpr ⟨s, hs⟩)

/-! ### The same for one column -/

/-- Both tables say the same of `i` before and after. -/
structure SameFor (m m' : OrdMap κ (OrdMap ι ν)) (r r' : OrdMap ι (OrdSet κ)) (i : ι) : Prop where
  cells : ∀ k, cell m' k i = cell m k i
  entry : r'[i]? = r[i]?

theorem SameFor.refl (m : OrdMap κ (OrdMap ι ν)) (r : OrdMap ι (OrdSet κ)) (i : ι) :
    SameFor m m r r i :=
  ⟨fun _ => rfl, rfl⟩

/-- Reverse entries of others do not matter. -/
theorem SameFor.add (h : SameFor m m' r r' i) (hj : j ≠ i) (k : κ) :
    SameFor m m' r (Index.add r' j k) i :=
  ⟨h.cells, (Index.get_add_of_ne hj r' k).trans h.entry⟩

theorem SameFor.remove (h : SameFor m m' r r' i) (hj : j ≠ i) (k : κ) :
    SameFor m m' r (Index.remove r' j k) i :=
  ⟨h.cells, (Index.get_remove_of_ne hj r' k).trans h.entry⟩

/-- Nor does a row that has no cell for `i`. -/
theorem sameFor_erase (r : OrdMap ι (OrdSet κ)) {k : κ} (hk : cell m k i = none) :
    SameFor m (m.erase k) r r i where
  cells k' := by
    rw [cell_erase]
    split
    · next heq => rw [← heq, hk]
    · rfl
  entry := rfl

/-- The removal of another is not felt. -/
theorem Closed.sameFor (h : Closed m m' r r' j) (hj : j ≠ i) : SameFor m m' r r' i where
  cells k := by rw [h.cells, if_neg fun heq => hj heq.2]
  entry := by rw [h.entries, if_neg hj]

end Table
