import Mathlib.Data.List.Basic

/-!
# Cutting a text at a separator

Text formats put fields one after the other with a separator between them. A reader cuts either at
the first separator, with everything behind it left as it is, or at every separator. Both give back
the fields that were put together, as long as the separator does not occur in those in front of it.
-/

variable {α : Type} [DecidableEq α]

namespace List

/-! ## The first separator -/

/-- The first separator in a text that begins with a field without one. -/
theorem idxOf?_append_cons {sep : α} {field rest : List α} (h : sep ∉ field) :
    (field ++ sep :: rest).idxOf? sep = some field.length := by
  induction field with
  | nil => simp [idxOf?_cons]
  | cons a field ih =>
      obtain ⟨hne, hfield⟩ := not_or.mp (mem_cons.not.mp h)
      rw [cons_append, idxOf?_cons, ih hfield]
      simp [Ne.symm hne]

/-- A text with a separator is a field without one, the separator, and the rest. -/
theorem append_cons_of_idxOf? {sep : α} {text : List α} {i : Nat} (h : text.idxOf? sep = some i) :
    text = text.take i ++ sep :: text.drop (i + 1) ∧ sep ∉ text.take i := by
  induction text generalizing i with
  | nil => simp at h
  | cons a text ih =>
      rw [idxOf?_cons] at h
      split at h
      · next heq =>
        cases h
        simp [eq_of_beq heq]
      · next hne =>
        obtain ⟨j, hj, rfl⟩ := Option.map_eq_some_iff.mp h
        obtain ⟨htext, hfield⟩ := ih hj
        refine ⟨?_, ?_⟩
        · rw [take_succ_cons, drop_succ_cons, cons_append, ← htext]
        · rw [take_succ_cons, mem_cons, not_or]
          exact ⟨fun heq => hne (by simp [heq]), hfield⟩

/-! ## Every separator -/

/-- The parts of a text between the separators; an empty text has none. -/
def fields (sep : α) (text : List α) : List (List α) :=
  if text = [] then [] else text.splitOn sep

/-- **What was joined is split again**, provided it was not joined to nothing. -/
theorem fields_intercalate {sep : α} {parts : List (List α)} (hsep : ∀ part ∈ parts, sep ∉ part)
    (hne : [sep].intercalate parts ≠ []) : fields sep ([sep].intercalate parts) = parts := by
  have hparts : parts ≠ [] := by
    rintro rfl
    exact hne rfl
  rw [fields, if_neg hne, splitOn_intercalate sep hsep hparts]

omit [DecidableEq α] in
/-- What is joined consists of the parts and separators. -/
theorem mem_of_mem_intercalate {sep a : α} {parts : List (List α)}
    (h : a ∈ [sep].intercalate parts) : a = sep ∨ ∃ part ∈ parts, a ∈ part := by
  induction parts with
  | nil => cases h
  | cons part parts ih =>
      by_cases hlast : parts = []
      · rw [hlast, intercalate_singleton] at h
        exact .inr ⟨part, mem_cons_self, h⟩
      · rw [intercalate_cons_of_ne_nil hlast, mem_append, mem_append, mem_singleton] at h
        rcases h with (h | h) | h
        · exact .inr ⟨part, mem_cons_self, h⟩
        · exact .inl h
        · rcases ih h with hsep | ⟨part', hpart', hmem⟩
          · exact .inl hsep
          · exact .inr ⟨part', mem_cons_of_mem part hpart', hmem⟩

end List
