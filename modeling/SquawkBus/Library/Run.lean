import Mathlib.Data.List.Infix

/-!
# Runs of a deterministic machine

A machine is a step function `step : σ → α → σ`; a run is a list of inputs, and the state it
reaches is the left fold of `step` over it. Everything said *along* a run is said of its
prefixes: `Meets step ok s as` asks that each input of `as` is acceptable in the state it is
applied to, and the rules below lift a fact about one step to every state the run reaches.

The rules come in three strengths: an invariant, a simulation by a second machine over the same
inputs, and the exact form of a simulation, where a step that is not acceptable is also known to
break the relation.
-/

namespace Run

/-! ## Conditions along a run -/

variable {σ τ α : Type*}

/-- Induction on the prefixes of one list: each step may use that the extended prefix is still
a prefix of the whole. -/
theorem prefix_induction (as : List α) {motive : List α → Prop} (nil : motive [])
    (snoc : ∀ pre a, pre ++ [a] <+: as → motive pre → motive (pre ++ [a])) :
    ∀ pre, pre <+: as → motive pre := by
  intro pre
  induction pre using List.reverseRecOn with
  | nil => exact fun _ => nil
  | append_singleton pre a ih =>
      intro h
      exact snoc pre a h (ih ((List.prefix_append pre [a]).trans h))

/-- Every input of the run satisfies `ok` in the state it meets. -/
def Meets (step : σ → α → σ) (ok : σ → α → Prop) (s : σ) (as : List α) : Prop :=
  ∀ pre a, pre ++ [a] <+: as → ok (pre.foldl step s) a

theorem meets_nil (step : σ → α → σ) (ok : σ → α → Prop) (s : σ) : Meets step ok s [] := by
  intro pre a h
  simp at h

theorem meets_cons {step : σ → α → σ} {ok : σ → α → Prop} {s : σ} {a : α} {as : List α} :
    Meets step ok s (a :: as) ↔ ok s a ∧ Meets step ok (step s a) as := by
  constructor
  · intro h
    refine ⟨h [] a (by simp), fun pre b hpre => ?_⟩
    exact h (a :: pre) b (by simpa using hpre)
  · rintro ⟨ha, has⟩ pre b hpre
    cases pre with
    | nil =>
        have hb : b = a := by simpa using hpre
        subst hb
        exact ha
    | cons c pre =>
        obtain ⟨rfl, htail⟩ : c = a ∧ pre ++ [b] <+: as := by
          simpa [List.cons_prefix_cons] using hpre
        exact has pre b htail

/-- What is met along a run is met along the beginnings of it. -/
theorem Meets.of_append {step : σ → α → σ} {ok : σ → α → Prop} {s : σ} {as bs : List α}
    (h : Meets step ok s (as ++ bs)) : Meets step ok s as :=
  fun pre a hpre => h pre a (hpre.trans (List.prefix_append as bs))

theorem Meets.last {step : σ → α → σ} {ok : σ → α → Prop} {s : σ} {as : List α} {a : α}
    (h : Meets step ok s (as ++ [a])) : ok (as.foldl step s) a :=
  h as a (List.prefix_refl _)

/-- Two conditions met along a run are met together. -/
theorem Meets.and {step : σ → α → σ} {ok ok' : σ → α → Prop} {s : σ} {as : List α}
    (h : Meets step ok s as) (h' : Meets step ok' s as) : Meets step (fun s a => ok s a ∧ ok' s a) s as :=
  fun pre a hpre => ⟨h pre a hpre, h' pre a hpre⟩

/-! ### Rules about what came before -/

/-- Each input is one that the rule allows behind the inputs before it. -/
def Abides (rule : List α → α → Prop) (as : List α) : Prop := ∀ pre a, pre ++ [a] <+: as → rule pre a

theorem abides_nil (rule : List α → α → Prop) : Abides rule [] := by
  intro pre a h
  simp at h

theorem Abides.snoc {rule : List α → α → Prop} {as : List α} {a : α} (h : Abides rule as)
    (ha : rule as a) : Abides rule (as ++ [a]) := by
  intro pre b hpre
  rcases List.prefix_concat_iff.mp hpre with heq | hlt
  · obtain ⟨rfl, hb⟩ := List.append_inj' heq rfl
    obtain rfl : b = a := by simpa using hb
    exact ha
  · exact h pre b hlt

theorem abides_snoc {rule : List α → α → Prop} {as : List α} {a : α} :
    Abides rule (as ++ [a]) ↔ Abides rule as ∧ rule as a :=
  ⟨fun h => ⟨fun pre b hpre => h pre b (hpre.trans (List.prefix_append as [a])),
    h as a (List.prefix_refl _)⟩, fun h => h.1.snoc h.2⟩

/-! ### What happens at some time -/

/-- Some input of the run satisfies `p` in the state it meets. -/
def Sometime (step : σ → α → σ) (p : σ → α → Prop) (s : σ) (as : List α) : Prop :=
  ∃ pre a, pre ++ [a] <+: as ∧ p (pre.foldl step s) a

/-- What never happens is what each input keeps from happening. -/
theorem not_sometime {step : σ → α → σ} {p : σ → α → Prop} {s : σ} {as : List α} :
    ¬ Sometime step p s as ↔ Meets step (fun s a => ¬ p s a) s as := by
  constructor
  · intro h pre a hpre hp
    exact h ⟨pre, a, hpre, hp⟩
  · rintro h ⟨pre, a, hpre, hp⟩
    exact h pre a hpre hp

theorem sometime_cons {step : σ → α → σ} {p : σ → α → Prop} {s : σ} {a : α} {as : List α} :
    Sometime step p s (a :: as) ↔ p s a ∨ Sometime step p (step s a) as := by
  rw [← not_iff_not, not_or, not_sometime, not_sometime, meets_cons]

/-- Conditions are decidable along a run when they are decidable at each step. -/
instance decidableMeets (step : σ → α → σ) (ok : σ → α → Prop) [∀ s a, Decidable (ok s a)] :
    ∀ s as, Decidable (Meets step ok s as)
  | s, [] => isTrue (meets_nil step ok s)
  | s, a :: as =>
      have := decidableMeets step ok (step s a) as
      decidable_of_iff (ok s a ∧ Meets step ok (step s a) as) meets_cons.symm

/-! ## Invariants and simulations -/

/-- **The invariant rule.** What holds at the start and is kept by every acceptable step holds in
the state the run reaches. -/
theorem invariant {step : σ → α → σ} {ok : σ → α → Prop} {inv : σ → Prop}
    (hstep : ∀ s a, inv s → ok s a → inv (step s a)) {s : σ} (hs : inv s) {as : List α}
    (hok : Meets step ok s as) : inv (as.foldl step s) := by
  refine prefix_induction as (motive := fun pre => inv (pre.foldl step s)) hs ?_ as (List.prefix_refl as)
  intro pre a hpre ih
  rw [List.foldl_append]
  exact hstep _ a ih (hok pre a hpre)

/-- **The simulation rule.** Two machines fed the same inputs stay related, provided each
acceptable step keeps the relation; the step may look at the inputs read so far. -/
theorem simulation {step : σ → α → σ} {spec : τ → α → τ} {rel : σ → τ → Prop}
    {ok : σ → α → Prop} {s : σ} {t : τ} {as : List α} (hst : rel s t)
    (hstep : ∀ pre a, pre ++ [a] <+: as → rel (pre.foldl step s) (pre.foldl spec t) →
      ok (pre.foldl step s) a →
      rel (step (pre.foldl step s) a) (spec (pre.foldl spec t) a))
    (hok : Meets step ok s as) :
    ∀ pre, pre <+: as → rel (pre.foldl step s) (pre.foldl spec t) := by
  refine prefix_induction as hst ?_
  intro pre a hpre ih
  simpa [List.foldl_append] using hstep pre a hpre ih (hok pre a hpre)

theorem Meets.snoc {step : σ → α → σ} {ok : σ → α → Prop} {s : σ} {pre : List α} {a : α}
    (hpre : Meets step ok s pre) (ha : ok (pre.foldl step s) a) :
    Meets step ok s (pre ++ [a]) := by
  intro p b hp
  rcases List.prefix_concat_iff.mp hp with heq | hlt
  · obtain ⟨rfl, hb⟩ := List.append_inj' heq rfl
    obtain rfl : b = a := by simpa using hb
    exact ha
  · exact hpre p b hlt

/-- **The exact simulation rule.** Suppose that from related states an acceptable step keeps the
relation and any other step breaks what an observer sees, `vis`, which the relation implies. Then
the observer sees nothing wrong along a run exactly when all its steps are acceptable. -/
theorem simulation_iff {step : σ → α → σ} {ok : σ → α → Prop} {s : σ} {t : τ} {as : List α}
    (spec : τ → α → τ) (rel vis : σ → τ → Prop) (hst : rel s t)
    (hvis : ∀ s t, rel s t → vis s t)
    (hgood : ∀ pre a, pre ++ [a] <+: as → rel (pre.foldl step s) (pre.foldl spec t) →
      ok (pre.foldl step s) a →
      rel (step (pre.foldl step s) a) (spec (pre.foldl spec t) a))
    (hbad : ∀ pre a, pre ++ [a] <+: as → rel (pre.foldl step s) (pre.foldl spec t) →
      vis (step (pre.foldl step s) a) (spec (pre.foldl spec t) a) → ok (pre.foldl step s) a) :
    (∀ pre, pre <+: as → vis (pre.foldl step s) (pre.foldl spec t)) ↔ Meets step ok s as := by
  constructor
  · intro h
    refine prefix_induction as (motive := Meets step ok s) (meets_nil step ok s) ?_
      as (List.prefix_refl as)
    intro pre a hpre ih
    have hle : pre <+: as := (List.prefix_append pre [a]).trans hpre
    have hrel : rel (pre.foldl step s) (pre.foldl spec t) :=
      simulation hst (fun p b hp => hgood p b (hp.trans hle)) ih pre (List.prefix_refl pre)
    refine ih.snoc (hbad pre a hpre hrel ?_)
    simpa [List.foldl_append] using h (pre ++ [a]) hpre
  · exact fun h pre hpre => hvis _ _ (simulation hst hgood h pre hpre)

/-- **The rule of equivalent conditions.** Two conditions on the steps that say the same wherever an
invariant holds, which the steps meeting them keep, are met by the same runs. -/
theorem meets_congr {step : σ → α → σ} {ok ok' : σ → α → Prop} (inv : σ → Prop)
    (hiff : ∀ s a, inv s → (ok s a ↔ ok' s a))
    (hstep : ∀ s a, inv s → ok s a → inv (step s a)) {s : σ} (hs : inv s) (as : List α) :
    Meets step ok s as ↔ Meets step ok' s as := by
  induction as generalizing s with
  | nil => exact ⟨fun _ => meets_nil step ok' s, fun _ => meets_nil step ok s⟩
  | cons a as ih =>
      rw [meets_cons, meets_cons, ← hiff s a hs]
      refine and_congr_right fun hok => ?_
      exact ih (hstep s a hs hok)

/-! ## Reports of a signal

A signal is a property of the state that is on or off. What a run reports is its changes. -/

/-- The report of one step: the new value, if there is one. -/
def edge (before after : Bool) : List Bool := if before = after then [] else [after]

@[simp] theorem edge_self (b : Bool) : edge b b = [] := if_pos rfl

/-- The reports of a run, in order. -/
def edges (step : σ → α → σ) (signal : σ → Bool) : σ → List α → List Bool
  | _, [] => []
  | s, a :: as => edge (signal s) (signal (step s a)) ++ edges step signal (step s a) as

/-- On and off strictly take turns, beginning with `b`. -/
def Alternates : Bool → List Bool → Prop
  | _, [] => True
  | b, c :: cs => c = b ∧ Alternates (!b) cs

/-- **The reports of a signal alternate**, whatever the machine does. -/
theorem alternates_edges (step : σ → α → σ) (signal : σ → Bool) (s : σ) (as : List α) :
    Alternates (!signal s) (edges step signal s as) := by
  induction as generalizing s with
  | nil => trivial
  | cons a as ih =>
      have hrest := ih (step s a)
      unfold edges edge
      split
      · next heq =>
        rw [heq]
        exact hrest
      · next hne =>
        have hnew : signal (step s a) = !signal s := by
          revert hne
          cases signal s <;> cases signal (step s a) <;> simp
        rw [hnew] at hrest ⊢
        exact ⟨rfl, hrest⟩

/-! ## What comes first -/

/-- Whatever satisfies `P` comes after something that satisfies `Q`. -/
def Preceded (P Q : α → Prop) (as : List α) : Prop :=
  ∀ pre a, pre ++ [a] <+: as → P a → ∃ b ∈ pre, Q b

theorem preceded_nil (P Q : α → Prop) : Preceded P Q [] := by
  intro pre a h
  simp at h

theorem preceded_snoc {P Q : α → Prop} {as : List α} {a : α} :
    Preceded P Q (as ++ [a]) ↔ Preceded P Q as ∧ (P a → ∃ b ∈ as, Q b) := by
  constructor
  · intro h
    exact ⟨fun pre b hpre => h pre b (hpre.trans (List.prefix_append as [a])),
      h as a (List.prefix_refl _)⟩
  · rintro ⟨has, ha⟩ pre b hpre
    rcases List.prefix_concat_iff.mp hpre with heq | hold
    · obtain ⟨rfl, hb⟩ := List.append_inj' heq rfl
      obtain rfl : b = a := by simpa using hb
      exact ha
    · exact has pre b hold

/-- More can follow when whatever in it needs something before it finds it in what there is. -/
theorem Preceded.append {P Q : α → Prop} {as bs : List α} (h : Preceded P Q as)
    (hbs : ∀ b ∈ bs, P b → ∃ a ∈ as, Q a) : Preceded P Q (as ++ bs) := by
  induction bs using List.reverseRecOn with
  | nil => rwa [List.append_nil]
  | append_singleton bs b ih =>
      rw [← List.append_assoc, preceded_snoc]
      refine ⟨ih fun b' hb' => hbs b' (List.mem_append_left [b] hb'), fun hb => ?_⟩
      obtain ⟨a, ha, hq⟩ := hbs b (List.mem_append_right bs List.mem_cons_self) hb
      exact ⟨a, List.mem_append_left bs ha, hq⟩

end Run
