import Mathlib.Data.List.Basic

/-!
# Command lines

A command line is a list of words, and says a list of items, each of which is one word or more. It is read
by a loop: a round takes the first word that is left, and with it what belongs to it of those behind. If
a round takes just one item, and makes of the state what the item says, the loop accepts just the
command lines that are made of items which can be applied one after the other (`parse_eq_ok_iff`), and
stops at the first word that does not go on like this (`parse_eq_error_iff`).
-/

namespace CommandLine

variable {σ ι α ε : Type}

/-! ## What is given once -/

theorem toList_injective : Function.Injective (Option.toList (α := α)) := by
  intro o o' h
  cases o <;> cases o' <;> simp_all

/-- What has been given is not given again. -/
theorem toList_append_cons {o o' : Option α} {a : α} {as : List α} :
    o.toList ++ a :: as = o'.toList ↔ o = none ∧ a :: as = o'.toList := by
  cases o with
  | none => simp
  | some b => cases o' <;> simp

/-- An option that may not have been given before takes the next word as its value. -/
def takeValue (given : Bool) (duplicate missing : ε) (set : α → Except ε σ) :
    List α → Except ε (σ × List α)
  | args =>
      if given then .error duplicate
      else
        match args with
        | [] => .error missing
        | value :: args =>
            match set value with
            | .ok s => .ok (s, args)
            | .error e => .error e

section

variable {given : Bool} {duplicate missing : ε} {set : α → Except ε σ} {args : List α}

theorem takeValue_eq_ok_iff {s : σ} {rest : List α} :
    takeValue given duplicate missing set args = .ok (s, rest) ↔
      given = false ∧ ∃ value, args = value :: rest ∧ set value = .ok s := by
  cases given with
  | true => simp [takeValue]
  | false =>
      cases args with
      | nil => simp [takeValue]
      | cons value args => cases hset : set value <;> simp [takeValue, hset, and_comm]

theorem takeValue_eq_error_iff {e : ε} :
    takeValue given duplicate missing set args = .error e ↔
      given = true ∧ e = duplicate ∨ given = false ∧ args = [] ∧ e = missing ∨
        given = false ∧ ∃ value rest, args = value :: rest ∧ set value = .error e := by
  cases given with
  | true => simp [takeValue, eq_comm]
  | false =>
      cases args with
      | nil => simp [takeValue, eq_comm]
      | cons value args => cases hset : set value <;> simp [takeValue, hset]

end

/-! ## The loop -/

/-- The loop; there is never more than a round for each word. -/
def parseLoop (round : σ → α → List α → Except ε (σ × List α)) : Nat → σ → List α → Except ε σ
  | 0, s, _ => .ok s
  | _ + 1, s, [] => .ok s
  | rounds + 1, s, a :: args =>
      match round s a args with
      | .ok (s, rest) => parseLoop round rounds s rest
      | .error e => .error e

def parse (round : σ → α → List α → Except ε (σ × List α)) (s : σ) (args : List α) : Except ε σ :=
  parseLoop round args.length s args

/-! ### Rounds that take items -/

/-- The round takes an item, written with these words, and applies it. -/
structure Takes (round : σ → α → List α → Except ε (σ × List α)) (words : ι → List α)
    (apply : σ → ι → Option σ) : Prop where
  ne_nil : ∀ item, words item ≠ []
  ok_iff : ∀ {s a args s' rest}, round s a args = .ok (s', rest) ↔
    ∃ item, a :: args = words item ++ rest ∧ apply s item = some s'

variable {round : σ → α → List α → Except ε (σ × List α)} {words : ι → List α}
  {apply : σ → ι → Option σ}

/-- The round that takes an item leaves the rest. -/
theorem Takes.cons_words (h : Takes round words apply) {s s' : σ} {item : ι}
    (hitem : apply s item = some s') (rest : List α) :
    ∃ a args, words item ++ rest = a :: args ∧ rest.length ≤ args.length ∧
      round s a args = .ok (s', rest) := by
  cases hwords : words item with
  | nil => exact absurd hwords (h.ne_nil item)
  | cons a args =>
      refine ⟨a, args ++ rest, rfl, by simp, h.ok_iff.mpr ⟨item, ?_, hitem⟩⟩
      rw [hwords]
      rfl

theorem Takes.rest_le (h : Takes round words apply) {s s' : σ} {a : α} {args rest : List α}
    (hround : round s a args = .ok (s', rest)) : rest.length ≤ args.length := by
  obtain ⟨item, hargs, -⟩ := h.ok_iff.mp hround
  have hpos := List.length_pos_iff.mpr (h.ne_nil item)
  have hlength := congrArg List.length hargs
  rw [List.length_cons, List.length_append] at hlength
  omega

/-- Items that can be applied are taken, whatever comes behind them. -/
theorem Takes.parseLoop_append (h : Takes round words apply) {items : List ι} {s s' : σ}
    (hitems : items.foldlM apply s = some s') (rest : List α) {rounds : Nat}
    (hrounds : (items.flatMap words ++ rest).length ≤ rounds) :
    ∃ rounds', rest.length ≤ rounds' ∧
      parseLoop round rounds s (items.flatMap words ++ rest) = parseLoop round rounds' s' rest := by
  induction items generalizing s rounds with
  | nil =>
      obtain rfl : s = s' := Option.some.inj hitems
      exact ⟨rounds, hrounds, rfl⟩
  | cons item items ih =>
      rw [List.foldlM_cons, Option.bind_eq_bind, Option.bind_eq_some_iff] at hitems
      obtain ⟨next, hitem, hnext⟩ := hitems
      rw [List.flatMap_cons, List.append_assoc] at hrounds ⊢
      obtain ⟨a, args, hargs, hle, hround⟩ := h.cons_words hitem (items.flatMap words ++ rest)
      rw [hargs] at hrounds ⊢
      cases rounds with
      | zero => cases hrounds
      | succ rounds =>
          simp only [parseLoop, hround]
          exact ih hnext (Nat.le_trans hle (Nat.le_of_succ_le_succ hrounds))

/-! ### What is parsed -/

/-- **What is accepted**: the words of items that can be applied one after the other. -/
theorem Takes.parse_eq_ok_iff (h : Takes round words apply) {s s' : σ} {args : List α} :
    parse round s args = .ok s' ↔
      ∃ items : List ι, args = items.flatMap words ∧ items.foldlM apply s = some s' := by
  have hsound : ∀ rounds s args, args.length ≤ rounds → parseLoop round rounds s args = .ok s' →
      ∃ items : List ι, args = items.flatMap words ∧ items.foldlM apply s = some s' := by
    intro rounds
    induction rounds with
    | zero =>
        intro s args hle hparse
        rw [List.length_eq_zero_iff.mp (Nat.le_zero.mp hle)]
        exact ⟨[], rfl, congrArg some (Except.ok.inj hparse)⟩
    | succ rounds ih =>
        intro s args hle hparse
        cases args with
        | nil => exact ⟨[], rfl, congrArg some (Except.ok.inj hparse)⟩
        | cons a args =>
            rw [parseLoop] at hparse
            split at hparse
            · next next rest hround =>
              obtain ⟨item, hargs, hitem⟩ := h.ok_iff.mp hround
              obtain ⟨items, rfl, hitems⟩ := ih next rest
                (Nat.le_trans (h.rest_le hround) (Nat.le_of_succ_le_succ hle)) hparse
              refine ⟨item :: items, by rw [List.flatMap_cons, hargs], ?_⟩
              rw [List.foldlM_cons, hitem]
              exact hitems
            · cases hparse
  constructor
  · exact hsound args.length s args (Nat.le_refl _)
  · rintro ⟨items, rfl, hitems⟩
    obtain ⟨rounds, -, heq⟩ := h.parseLoop_append hitems [] (Nat.le_of_eq (by rw [List.append_nil]))
    rw [List.append_nil] at heq
    rw [parse, heq]
    cases rounds <;> rfl

/-- **Where it stops**: behind items that can be applied, at a word whose round goes wrong. -/
theorem Takes.parse_eq_error_iff (h : Takes round words apply) {s : σ} {args : List α} {e : ε} :
    parse round s args = .error e ↔
      ∃ (items : List ι) (s' : σ) (a : α) (rest : List α), args = items.flatMap words ++ a :: rest ∧
        items.foldlM apply s = some s' ∧ round s' a rest = .error e := by
  have hsound : ∀ rounds s args, parseLoop round rounds s args = .error e →
      ∃ (items : List ι) (s' : σ) (a : α) (rest : List α), args = items.flatMap words ++ a :: rest ∧
        items.foldlM apply s = some s' ∧ round s' a rest = .error e := by
    intro rounds
    induction rounds with
    | zero =>
        intro s args hparse
        cases hparse
    | succ rounds ih =>
        intro s args hparse
        cases args with
        | nil => cases hparse
        | cons a args =>
            rw [parseLoop] at hparse
            split at hparse
            · next next rest hround =>
              obtain ⟨item, hargs, hitem⟩ := h.ok_iff.mp hround
              obtain ⟨items, s', b, rest', rfl, hitems, hlast⟩ := ih next rest hparse
              refine ⟨item :: items, s', b, rest', ?_, ?_, hlast⟩
              · rw [List.flatMap_cons, List.append_assoc, hargs]
              · rw [List.foldlM_cons, hitem]
                exact hitems
            · next e' hround =>
              obtain rfl := Except.error.inj hparse
              exact ⟨[], s, a, args, rfl, rfl, hround⟩
  constructor
  · exact hsound args.length s args
  · rintro ⟨items, s', a, rest, rfl, hitems, hlast⟩
    obtain ⟨rounds, hle, heq⟩ := h.parseLoop_append hitems (a :: rest) (Nat.le_refl _)
    rw [parse, heq]
    cases rounds with
    | zero => cases hle
    | succ rounds => simp only [parseLoop, hlast]

end CommandLine
