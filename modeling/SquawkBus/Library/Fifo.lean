import SquawkBus.Library.Run

/-!
# Queues of symbols

The purpose of a buffer between a writer and a reader: symbols are pushed in runs of any length and
popped in numbers that need not match the runs. The queue itself is the list of symbols in it. A pop
**fits** when no more is asked for than is there; along a bounded run the queue is what has been pushed
less its first part, as long as what has been popped (`Bounded.queue_eq`).

An implementation keeps the symbols in some other way. It `Implements` the queue when each operation
that fits returns what the queue returns and leaves what the queue leaves, and then so does every
bounded run.
-/

namespace Fifo

/-! ## The machine -/

variable {α β τ ε : Type}

inductive Op (β : Type) where
  | push (symbols : List β)
  | pop (n : Nat)

/-- The symbols that an operation puts in. -/
def Op.pushed : Op β → List β
  | .push symbols => symbols
  | .pop _ => []

/-- The number of symbols that an operation asks for. -/
def Op.popped : Op β → Nat
  | .push _ => 0
  | .pop n => n

/-- Everything pushed in a run. -/
def pushed (ops : List (Op β)) : List β := ops.flatMap Op.pushed

/-- The number of symbols popped in a run. -/
def popped : List (Op β) → Nat
  | [] => 0
  | op :: ops => op.popped + popped ops

/-- The queue after one operation. -/
def step (queue : List β) (op : Op β) : List β := (queue ++ op.pushed).drop op.popped

/-- What one operation returns. -/
def output (queue : List β) (op : Op β) : List β := queue.take op.popped

/-! ## Runs that read no more than there is -/

/-- No more is asked for than is there. -/
def Fits (queue : List β) (op : Op β) : Prop := op.popped ≤ queue.length

instance decidableFits (queue : List β) (op : Op β) : Decidable (Fits queue op) :=
  inferInstanceAs (Decidable (_ ≤ _))

/-- Every operation of the run fits. -/
def Bounded (ops : List (Op β)) : Prop := Run.Meets step Fits [] ops

instance decidableBounded (ops : List (Op β)) : Decidable (Bounded ops) :=
  inferInstanceAs (Decidable (Run.Meets _ _ _ _))

@[simp] theorem pushed_append (ops more : List (Op β)) :
    pushed (ops ++ more) = pushed ops ++ pushed more := by
  simp [pushed]

@[simp] theorem popped_append (ops more : List (Op β)) :
    popped (ops ++ more) = popped ops + popped more := by
  induction ops with
  | nil => exact (Nat.zero_add _).symm
  | cons op ops ih => rw [List.cons_append, popped, popped, ih, Nat.add_assoc]

@[simp] theorem pushed_singleton (op : Op β) : pushed [op] = op.pushed := by simp [pushed]

@[simp] theorem popped_singleton (op : Op β) : popped [op] = op.popped := by simp [popped]

theorem Bounded.mono {pre ops : List (Op β)} (h : Bounded ops) (hpre : pre <+: ops) :
    Bounded pre :=
  fun p op hp => h p op (hp.trans hpre)

/-- **What is in the queue** is what has been pushed less what has been popped, and that is no more
than has been pushed. -/
theorem Bounded.queue_eq {ops : List (Op β)} (h : Bounded ops) :
    ops.foldl step [] = (pushed ops).drop (popped ops) ∧ popped ops ≤ (pushed ops).length := by
  induction ops using List.reverseRecOn with
  | nil => exact ⟨rfl, Nat.zero_le _⟩
  | append_singleton ops op ih =>
      obtain ⟨hqueue, hle⟩ := ih (h.mono (List.prefix_append ops [op]))
      have hfits : op.popped ≤ ((pushed ops).drop (popped ops)).length := by
        rw [← hqueue]
        exact h ops op (List.prefix_refl _)
      rw [List.length_drop] at hfits
      constructor
      · rw [List.foldl_append, List.foldl_cons, List.foldl_nil, hqueue, step, pushed_append,
          popped_append, pushed_singleton, popped_singleton, ← List.drop_drop,
          List.drop_append_of_le_length hle]
      · rw [pushed_append, popped_append, pushed_singleton, popped_singleton, List.length_append]
        omega

/-- One more operation fits when it asks for no more than is left. -/
theorem bounded_concat_iff {ops : List (Op β)} {op : Op β} :
    Bounded (ops ++ [op]) ↔ Bounded ops ∧ popped ops + op.popped ≤ (pushed ops).length := by
  have hfits (h : Bounded ops) :
      Fits (ops.foldl step []) op ↔ popped ops + op.popped ≤ (pushed ops).length := by
    obtain ⟨hqueue, hle⟩ := h.queue_eq
    rw [hqueue, Fits, List.length_drop]
    omega
  constructor
  · intro h
    have hops : Bounded ops := h.mono (List.prefix_append ops [op])
    exact ⟨hops, (hfits hops).mp (h ops op (List.prefix_refl _))⟩
  · rintro ⟨hops, hle⟩
    exact Run.Meets.snoc hops ((hfits hops).mpr hle)

/-! ## Implementations -/

/-- An operation that fits returns what the queue returns, and leaves what the queue leaves. -/
def Implements (view : α → Op β) (contents : τ → List β)
    (apply : τ → α → Except ε (List β × τ)) : Prop :=
  ∀ t a, Fits (contents t) (view a) →
    ∃ t', apply t a = .ok (output (contents t) (view a), t') ∧
      contents t' = step (contents t) (view a)

/-- The state that a run of operations leaves, if none fails. -/
def run (apply : τ → α → Except ε (List β × τ)) (t : τ) (as : List α) : Except ε τ :=
  as.foldlM (fun t a => (apply t a).map Prod.snd) t

variable {view : α → Op β} {contents : τ → List β} {apply : τ → α → Except ε (List β × τ)}

theorem run_nil (apply : τ → α → Except ε (List β × τ)) (t : τ) : run apply t [] = .ok t := rfl

theorem run_cons_ok {t t' : τ} {a : α} {out : List β} (h : apply t a = .ok (out, t'))
    (as : List α) : run apply t (a :: as) = run apply t' as := by
  rw [run, List.foldlM_cons, h]
  rfl

theorem run_cons_error {t : τ} {a : α} {e : ε} (h : apply t a = .error e) (as : List α) :
    run apply t (a :: as) = .error e := by
  rw [run, List.foldlM_cons, h]
  rfl

/-- **The rule of implementations**: a run that the queue can make, the implementation makes, and its
contents are the queue's. -/
theorem Implements.run_ok (himpl : Implements view contents apply) {t : τ} {as : List α}
    (h : Run.Meets step Fits (contents t) (as.map view)) :
    ∃ t', run apply t as = .ok t' ∧ contents t' = (as.map view).foldl step (contents t) := by
  induction as generalizing t with
  | nil => exact ⟨t, rfl, rfl⟩
  | cons a as ih =>
      rw [List.map_cons, Run.meets_cons] at h
      obtain ⟨t', happly, hcontents⟩ := himpl t a h.1
      rw [← hcontents] at h
      obtain ⟨t'', hrun, hrest⟩ := ih h.2
      refine ⟨t'', ?_, ?_⟩
      · rw [run_cons_ok happly, hrun]
      · rw [hrest, hcontents, List.map_cons, List.foldl_cons]

/-- What every operation keeps, a run keeps. -/
theorem run_keeps {P : τ → Prop}
    (hstep : ∀ t a out t', P t → apply t a = .ok (out, t') → P t') {t t' : τ} {as : List α}
    (ht : P t) (h : run apply t as = .ok t') : P t' := by
  induction as generalizing t with
  | nil =>
      cases h
      exact ht
  | cons a as ih =>
      cases happly : apply t a with
      | error e =>
          rw [run_cons_error happly] at h
          cases h
      | ok result =>
          obtain ⟨out, next⟩ := result
          rw [run_cons_ok happly] at h
          exact ih (hstep t a out next ht happly) h

/-- Where two implementations correspond call by call, so do their runs. -/
theorem run_map {τ' : Type} {apply' : τ' → α → Except ε (List β × τ')} {f : τ → τ'}
    (happly : ∀ t a, apply' (f t) a = (apply t a).map (Prod.map id f)) (t : τ) (as : List α) :
    run apply' (f t) as = (run apply t as).map f := by
  induction as generalizing t with
  | nil => rfl
  | cons a as ih =>
      have hcall := happly t a
      cases hresult : apply t a with
      | error e =>
          rw [hresult] at hcall
          rw [run_cons_error hresult, run_cons_error hcall]
          rfl
      | ok result =>
          rw [hresult] at hcall
          rw [run_cons_ok hresult, run_cons_ok hcall]
          exact ih result.2

end Fifo
