import Mathlib.Data.List.TakeWhile

/-!
# Formatted input

A stream of symbols from which items are extracted one after another: words, which spaces end, and
quoted strings, in which an escape symbol stands in front of each delimiter that is meant. What has
been said of a stream that is at its end is that it is no longer `good`; nothing is extracted from it
then.

`word` and `quoted` undo the writing of what they read, whatever spaces stand in front of it and
whatever follows (`word_append`, `quoted_quote`).
-/

/-! ## Streams -/

/-- What is left to be read, and whether all has gone well. -/
structure TextInput (β : Type) where
  text : List β
  good : Bool

namespace TextInput

variable {β : Type}

/-- The stream over a text. -/
def start (text : List β) : TextInput β := ⟨text, true⟩

/-! ## Words -/

section

variable (space : β → Bool)

/-- Extract a word. The stream is no longer good when nothing stops the word but the end. -/
def word (input : TextInput β) : Option (List β) × TextInput β :=
  match input.good, input.text.dropWhile space with
  | true, c :: text =>
      let rest := (c :: text).dropWhile fun c => !space c
      (some ((c :: text).takeWhile fun c => !space c), ⟨rest, !rest.isEmpty⟩)
  | true, [] => (none, ⟨[], false⟩)
  | false, _ => (none, input)

/-- A string written without quotes: it is not empty, and no space is in it. -/
structure IsWord (w : List β) : Prop where
  ne_nil : w ≠ []
  no_space : ∀ c ∈ w, space c = false

/-- What can follow a word. -/
def Ends (text : List β) : Prop := ∀ c ∈ text.head?, space c = true

variable {space}

theorem isWord_of_any {w : List β} (hne : w ≠ []) (h : w.any space = false) : IsWord space w := by
  refine ⟨hne, fun c hc => ?_⟩
  rw [List.any_eq_false] at h
  exact Bool.eq_false_iff.mpr (h c hc)

theorem dropWhile_append {lead : List β} (hlead : ∀ c ∈ lead, space c) (text : List β) :
    (lead ++ text).dropWhile space = text.dropWhile space := by
  rw [List.dropWhile_append, List.dropWhile_eq_nil_iff.mpr hlead]
  rfl

/-- A word that stands in front is not skipped. -/
theorem IsWord.dropWhile_append {w : List β} (h : IsWord space w) (rest : List β) :
    (w ++ rest).dropWhile space = w ++ rest := by
  cases w with
  | nil => exact absurd rfl h.ne_nil
  | cons c w =>
      have hc := h.no_space c List.mem_cons_self
      rw [List.cons_append, List.dropWhile_cons, hc]
      rfl

theorem IsWord.takeWhile_append {w : List β} (h : IsWord space w) {rest : List β}
    (hrest : Ends space rest) : (w ++ rest).takeWhile (fun c => !space c) = w := by
  have hw : w.takeWhile (fun c => !space c) = w :=
    List.takeWhile_eq_self_iff.mpr fun c hc => by simp [h.no_space c hc]
  rw [List.takeWhile_append, if_pos (by rw [hw])]
  cases rest with
  | nil => exact List.append_nil w
  | cons c rest =>
      have hc := hrest c rfl
      rw [List.takeWhile_cons, hc]
      exact List.append_nil w

theorem IsWord.dropWhile_word {w : List β} (h : IsWord space w) {rest : List β}
    (hrest : Ends space rest) : (w ++ rest).dropWhile (fun c => !space c) = rest := by
  have hsplit := List.takeWhile_append_dropWhile (p := fun c => !space c) (l := w ++ rest)
  rw [h.takeWhile_append hrest] at hsplit
  exact List.append_cancel_left hsplit

/-- **A word is read as it is written**, and what follows it is left. -/
theorem word_append {lead w rest : List β} (hlead : ∀ c ∈ lead, space c) (h : IsWord space w)
    (hrest : Ends space rest) :
    (start (lead ++ (w ++ rest))).word space = (some w, ⟨rest, !rest.isEmpty⟩) := by
  unfold word start
  simp only
  rw [TextInput.dropWhile_append hlead, h.dropWhile_append]
  have hcons : ∃ c text, w ++ rest = c :: text := by
    cases w with
    | nil => exact absurd rfl h.ne_nil
    | cons c w => exact ⟨c, w ++ rest, rfl⟩
  obtain ⟨c, text, heq⟩ := hcons
  rw [heq]
  simp only
  rw [← heq, h.takeWhile_append hrest, h.dropWhile_word hrest]

end

/-! ## Quoted strings -/

section

variable [DecidableEq β] (delim escape : β)

/-- The string in front of the next delimiter that is not escaped, and what follows it; nothing follows
where there is no such delimiter. -/
def unquote : List β → List β × Option (List β)
  | [] => ([], none)
  | c :: text =>
      if c = escape then
        match text with
        | [] => ([], none)
        | c' :: text => (c' :: (unquote text).1, (unquote text).2)
      else if c = delim then ([], some text)
      else (c :: (unquote text).1, (unquote text).2)

/-- The string with an escape in front of each delimiter and each escape. -/
def escaped (s : List β) : List β :=
  s.flatMap fun c => if c = delim ∨ c = escape then [escape, c] else [c]

/-- The string in quotes. -/
def quote (s : List β) : List β := delim :: (escaped delim escape s ++ [delim])

variable {delim escape}

/-- **What is escaped is read back.** -/
theorem unquote_escaped (hne : delim ≠ escape) (s rest : List β) :
    unquote delim escape (escaped delim escape s ++ delim :: rest) = (s, some rest) := by
  induction s with
  | nil =>
      show unquote delim escape (delim :: rest) = _
      unfold unquote
      rw [if_neg hne, if_pos rfl]
  | cons c s ih =>
      unfold escaped at ih ⊢
      rw [List.flatMap_cons, List.append_assoc]
      split
      · rw [List.cons_append, List.cons_append, List.nil_append]
        unfold unquote
        rw [if_pos rfl]
        simp only [ih]
      · next hplain =>
        rw [not_or] at hplain
        rw [List.cons_append, List.nil_append]
        unfold unquote
        rw [if_neg hplain.2, if_neg hplain.1]
        simp only [ih]

variable (space : β → Bool) (delim escape)

/-- Extract a string that may be quoted; `old` is what it is if there is none. -/
def quoted (old : List β) (input : TextInput β) : List β × TextInput β :=
  match input.good, input.text.dropWhile space with
  | true, c :: text =>
      if c = delim then
        match unquote delim escape text with
        | (s, some rest) => (s, ⟨rest, true⟩)
        | (s, none) => (s, ⟨[], false⟩)
      else
        match word space ⟨c :: text, true⟩ with
        | (some w, input) => (w, input)
        | (none, input) => (old, input)
  | true, [] => (old, ⟨[], false⟩)
  | false, _ => (old, input)

variable {space delim escape}

/-- **A quoted string is read back**, whatever is in it. -/
theorem quoted_quote (hne : delim ≠ escape) (hspace : space delim = false) {lead : List β}
    (hlead : ∀ c ∈ lead, space c) (old s rest : List β) :
    quoted delim escape space old (start (lead ++ (quote delim escape s ++ rest))) =
      (s, start rest) := by
  have hskip : (lead ++ (quote delim escape s ++ rest)).dropWhile space =
      delim :: (escaped delim escape s ++ delim :: rest) := by
    rw [dropWhile_append hlead, quote, List.cons_append, List.dropWhile_cons, hspace,
      List.append_assoc]
    rfl
  unfold quoted start
  simp only [hskip, if_true, unquote_escaped hne]

/-- A string without spaces need not be quoted, if it does not begin like one that is. -/
theorem quoted_append {lead w rest : List β} (hlead : ∀ c ∈ lead, space c) (h : IsWord space w)
    (hrest : Ends space rest) (hbare : ∀ c ∈ w.head?, c ≠ delim) (old : List β) :
    quoted delim escape space old (start (lead ++ (w ++ rest))) = (w, ⟨rest, !rest.isEmpty⟩) := by
  obtain ⟨c, w', rfl⟩ : ∃ c w', w = c :: w' := List.exists_cons_of_ne_nil h.ne_nil
  have hskip : (lead ++ (c :: w' ++ rest)).dropWhile space = c :: (w' ++ rest) := by
    rw [dropWhile_append hlead, h.dropWhile_append, List.cons_append]
  have hread : word space ⟨c :: (w' ++ rest), true⟩ = _ :=
    word_append (List.forall_mem_nil _) h hrest
  unfold quoted start
  simp only [hskip, if_neg (hbare c rfl), hread]

/-- There is no string in spaces, quoted or not. -/
theorem quoted_of_spaces {input : TextInput β} (h : ∀ c ∈ input.text, space c) (old : List β) :
    (quoted delim escape space old input).1 = old ∧
      (quoted delim escape space old input).2.good = false := by
  unfold quoted
  rw [List.dropWhile_eq_nil_iff.mpr h]
  cases hgood : input.good with
  | true => exact ⟨rfl, rfl⟩
  | false => exact ⟨rfl, hgood⟩

end

end TextInput
