import Mathlib.Data.List.Basic

/-!
# Computations with a state, a trace of events and an abrupt end

`Outcome σ ε φ` is what one call of an imperative function leaves behind: the state as it then
is, the events that happened on the way, in order, and the fault that ended the call early, if
any. A fault does not undo anything: the state and the events are those at the point of the
fault, as they are when an exception unwinds a call whose updates have been made in place.

`andThen` is sequencing and `forEach` the loop over a list; both stop at the first fault.
-/

/-! ## Results of `Except` -/

/-- A sequence in `Except` returns when both of its parts do. -/
theorem Except.bind_eq_ok {ε α β : Type} {x : Except ε α} {f : α → Except ε β} {b : β} :
    (x >>= f) = .ok b ↔ ∃ a, x = .ok a ∧ f a = .ok b := by
  constructor
  · intro h
    cases x with
    | error e => cases h
    | ok a => exact ⟨a, rfl, h⟩
  · rintro ⟨a, rfl, h⟩
    exact h

/-- A loop whose rounds may fail, each before it has changed anything, computes what it needs first. -/
theorem Except.foldlM_eq_map_mapM {ε α β γ : Type} (get : α → Except ε β) (put : γ → β → γ) (c : γ)
    (l : List α) :
    l.foldlM (fun c a => (get a).map (put c)) c = (l.mapM get).map (List.foldl put c) := by
  induction l generalizing c with
  | nil => rfl
  | cons a l ih =>
      rw [List.foldlM_cons, List.mapM_cons]
      cases get a with
      | error e => rfl
      | ok b =>
          show l.foldlM _ (put c b) = _
          rw [ih]
          show _ = (l.mapM get >>= fun bs => Except.ok (b :: bs)).map _
          cases l.mapM get <;> rfl

/-- What is done to every result can be done at the end. -/
theorem Except.mapM_map {ε α β γ : Type} (get : α → Except ε β) (f : β → γ) (l : List α) :
    l.mapM (fun a => (get a).map f) = (l.mapM get).map (List.map f) := by
  induction l with
  | nil => rfl
  | cons a l ih =>
      rw [List.mapM_cons, List.mapM_cons, ih]
      cases get a with
      | error e => rfl
      | ok b =>
          show ((l.mapM get).map (List.map f) >>= fun cs => Except.ok (f b :: cs)) =
            (l.mapM get >>= fun bs => Except.ok (b :: bs)).map _
          cases l.mapM get <;> rfl

/-! ## Outcomes -/

/-- The result of one call: final state, events in order, and the fault that cut it short. -/
structure Outcome (σ ε φ : Type) where
  state : σ
  events : List ε
  fault : Option φ

namespace Outcome

variable {σ ε φ α : Type}

/-- Nothing more happens. -/
def done (s : σ) : Outcome σ ε φ := ⟨s, [], none⟩

/-- The events `es` happen and the state becomes `s`. -/
def emit (s : σ) (es : List ε) : Outcome σ ε φ := ⟨s, es, none⟩

/-- The call ends here with a fault. -/
def fail (s : σ) (f : φ) : Outcome σ ε φ := ⟨s, [], some f⟩

@[simp] theorem done_state (s : σ) : (done s : Outcome σ ε φ).state = s := rfl
@[simp] theorem done_events (s : σ) : (done s : Outcome σ ε φ).events = [] := rfl
@[simp] theorem done_fault (s : σ) : (done s : Outcome σ ε φ).fault = none := rfl
@[simp] theorem emit_state (s : σ) (es : List ε) : (emit s es : Outcome σ ε φ).state = s := rfl
@[simp] theorem emit_events (s : σ) (es : List ε) : (emit s es : Outcome σ ε φ).events = es := rfl
@[simp] theorem emit_fault (s : σ) (es : List ε) : (emit s es : Outcome σ ε φ).fault = none := rfl
@[simp] theorem fail_state (s : σ) (f : φ) : (fail s f : Outcome σ ε φ).state = s := rfl
@[simp] theorem fail_events (s : σ) (f : φ) : (fail s f : Outcome σ ε φ).events = [] := rfl
@[simp] theorem fail_fault (s : σ) (f : φ) : (fail s f : Outcome σ ε φ).fault = some f := rfl

/-! ### One call after another -/

/-- Sequencing: `k` runs from the state reached, unless a fault came first. -/
def andThen (o : Outcome σ ε φ) (k : σ → Outcome σ ε φ) : Outcome σ ε φ :=
  match o.fault with
  | some _ => o
  | none => ⟨(k o.state).state, o.events ++ (k o.state).events, (k o.state).fault⟩

/-- The loop over a list, left to right. -/
def forEach (body : α → σ → Outcome σ ε φ) : List α → σ → Outcome σ ε φ
  | [], s => done s
  | a :: as, s => (body a s).andThen (forEach body as)

@[simp] theorem forEach_nil (body : α → σ → Outcome σ ε φ) (s : σ) :
    forEach body [] s = done s := rfl

@[simp] theorem forEach_cons (body : α → σ → Outcome σ ε φ) (a : α) (as : List α) (s : σ) :
    forEach body (a :: as) s = (body a s).andThen (forEach body as) := rfl

theorem andThen_of_fault {o : Outcome σ ε φ} {f : φ} (h : o.fault = some f)
    (k : σ → Outcome σ ε φ) : o.andThen k = o := by
  rw [andThen, h]

theorem andThen_of_ok {o : Outcome σ ε φ} (h : o.fault = none) (k : σ → Outcome σ ε φ) :
    o.andThen k = ⟨(k o.state).state, o.events ++ (k o.state).events, (k o.state).fault⟩ := by
  rw [andThen, h]

@[simp] theorem done_andThen (s : σ) (k : σ → Outcome σ ε φ) : (done s).andThen k = k s := by
  rfl

@[simp] theorem fail_andThen (s : σ) (f : φ) (k : σ → Outcome σ ε φ) :
    (fail s f).andThen k = fail s f :=
  andThen_of_fault rfl k

@[simp] theorem andThen_done (o : Outcome σ ε φ) : o.andThen done = o := by
  cases h : o.fault with
  | some f => exact andThen_of_fault h done
  | none =>
      rw [andThen_of_ok h, done_events, List.append_nil, done_state, done_fault, ← h]

theorem forEach_singleton (body : α → σ → Outcome σ ε φ) (a : α) (s : σ) :
    forEach body [a] s = body a s :=
  andThen_done (body a s)

/-! ### What calls keep -/

/-- What both parts keep, a sequence keeps. -/
theorem andThen_keeps {P : σ → Prop} {o : Outcome σ ε φ} {k : σ → Outcome σ ε φ} (ho : P o.state)
    (hk : ∀ s, P s → P (k s).state) : P (o.andThen k).state := by
  cases h : o.fault with
  | some f => rwa [andThen_of_fault h]
  | none =>
      rw [andThen_of_ok h]
      exact hk o.state ho

/-- A sequence returns when both of its parts do. -/
theorem returns_andThen {o : Outcome σ ε φ} {k : σ → Outcome σ ε φ}
    (h : (o.andThen k).fault = none) : o.fault = none ∧ (k o.state).fault = none := by
  cases ho : o.fault with
  | some f =>
      rw [andThen_of_fault ho, ho] at h
      cases h
  | none =>
      rw [andThen_of_ok ho] at h
      exact ⟨rfl, h⟩

theorem andThen_assoc (o : Outcome σ ε φ) (k l : σ → Outcome σ ε φ) :
    (o.andThen k).andThen l = o.andThen fun s => (k s).andThen l := by
  cases ho : o.fault with
  | some f => rw [andThen_of_fault ho, andThen_of_fault ho, andThen_of_fault ho]
  | none =>
      rw [andThen_of_ok ho, andThen_of_ok ho]
      cases hk : (k o.state).fault with
      | some f => rw [andThen_of_fault (f := f) rfl, andThen_of_fault hk, hk]
      | none =>
          rw [andThen_of_ok rfl, andThen_of_ok hk]
          simp

theorem forEach_append (body : α → σ → Outcome σ ε φ) (as bs : List α) (s : σ) :
    forEach body (as ++ bs) s = (forEach body as s).andThen (forEach body bs) := by
  induction as generalizing s with
  | nil => rfl
  | cons a as ih =>
      rw [List.cons_append, forEach_cons, forEach_cons, andThen_assoc]
      congr 1
      funext s
      exact ih s

/-- A loop of loops is one loop over all the rounds. -/
theorem forEach_forEach {β : Type} (body : α → σ → Outcome σ ε φ) (rounds : β → List α)
    (bs : List β) (s : σ) :
    forEach (fun b => forEach body (rounds b)) bs s = forEach body (bs.flatMap rounds) s := by
  induction bs generalizing s with
  | nil => rfl
  | cons b bs ih =>
      rw [forEach_cons, List.flatMap_cons, forEach_append]
      congr 1
      funext s
      exact ih s

/-! ## What holds after a call, however it ends -/

/-- The final state satisfies `P`, every event `Q`, and the fault, if there is one, `F`. -/
structure Ensures (P : σ → Prop) (Q : ε → Prop) (F : φ → Prop) (o : Outcome σ ε φ) : Prop where
  state : P o.state
  events : ∀ e ∈ o.events, Q e
  fault : ∀ f, o.fault = some f → F f

variable {P : σ → Prop} {Q : ε → Prop} {F : φ → Prop}

theorem ensures_done {s : σ} (hs : P s) : Ensures P Q F (done s) :=
  ⟨hs, by simp, by simp⟩

theorem ensures_emit {s : σ} {es : List ε} (hs : P s) (hes : ∀ e ∈ es, Q e) :
    Ensures P Q F (emit s es) :=
  ⟨hs, hes, by simp⟩

theorem ensures_fail {s : σ} {f : φ} (hs : P s) (hf : F f) : Ensures P Q F (fail s f) :=
  ⟨hs, by simp, fun _ heq => Option.some.inj heq ▸ hf⟩

theorem Ensures.mono {P' : σ → Prop} {Q' : ε → Prop} {F' : φ → Prop} {o : Outcome σ ε φ}
    (h : Ensures P Q F o) (hP : ∀ s, P s → P' s) (hQ : ∀ e, Q e → Q' e) (hF : ∀ f, F f → F' f) :
    Ensures P' Q' F' o :=
  ⟨hP _ h.state, fun e he => hQ e (h.events e he), fun f hf => hF f (h.fault f hf)⟩

/-- A call for which no fault is possible returns. -/
theorem Ensures.returns {o : Outcome σ ε φ} (h : Ensures P Q (fun _ => False) o) : o.fault = none :=
  Option.eq_none_iff_forall_ne_some.mpr fun f hf => h.fault f hf

/-- **The rule of sequencing.** -/
theorem Ensures.andThen {o : Outcome σ ε φ} {k : σ → Outcome σ ε φ} (ho : Ensures P Q F o)
    (hk : o.fault = none → P o.state → Ensures P Q F (k o.state)) :
    Ensures P Q F (o.andThen k) := by
  cases h : o.fault with
  | some f => rwa [andThen_of_fault h]
  | none =>
      have hrest := hk h ho.state
      rw [andThen_of_ok h]
      refine ⟨hrest.state, fun e he => ?_, hrest.fault⟩
      rcases List.mem_append.mp he with he | he
      · exact ho.events e he
      · exact hrest.events e he

/-- **The loop rule**: what every round keeps, the loop keeps. -/
theorem Ensures.forEach {body : α → σ → Outcome σ ε φ} {as : List α}
    (hbody : ∀ a ∈ as, ∀ s, P s → Ensures P Q F (body a s)) {s : σ} (hs : P s) :
    Ensures P Q F (Outcome.forEach body as s) := by
  induction as generalizing s with
  | nil => exact ensures_done hs
  | cons a as ih =>
      exact (hbody a (by simp) s hs).andThen fun _ h =>
        ih (fun b hb => hbody b (List.mem_cons_of_mem a hb)) h

/-- The loop rule for a property of the state alone. -/
theorem forEach_keeps {body : α → σ → Outcome σ ε φ} (hbody : ∀ s a, P s → P (body a s).state)
    {s : σ} (hs : P s) (as : List α) : P (Outcome.forEach body as s).state :=
  (Ensures.forEach (Q := fun _ => True) (F := fun _ => True)
    (fun a _ s h => ⟨hbody s a h, fun _ _ => trivial, fun _ _ => trivial⟩) hs).state

/-- The loop rule for loops that return: each round may use that it has returned. -/
theorem forEach_keeps_of_returns {body : α → σ → Outcome σ ε φ}
    (hbody : ∀ s a, P s → (body a s).fault = none → P (body a s).state) {s : σ} (hs : P s)
    {as : List α} (h : (Outcome.forEach body as s).fault = none) :
    P (Outcome.forEach body as s).state := by
  induction as generalizing s with
  | nil => exact hs
  | cons a as ih =>
      obtain ⟨hround, hrest⟩ := returns_andThen h
      rw [forEach_cons, andThen_of_ok hround]
      exact ih (hbody s a hs hround) hrest

/-! ## Conditions along a loop -/

/-- Every round that the loop comes to satisfies `ok` in the state it finds. -/
def Meets (body : α → σ → Outcome σ ε φ) (ok : σ → α → Prop) : List α → σ → Prop
  | [], _ => True
  | a :: as, s => ok s a ∧ ((body a s).fault = none → Meets body ok as (body a s).state)

instance decidableMeets (body : α → σ → Outcome σ ε φ) (ok : σ → α → Prop)
    [∀ s a, Decidable (ok s a)] : ∀ as s, Decidable (Meets body ok as s)
  | [], _ => isTrue trivial
  | a :: as, s =>
      have := decidableMeets body ok as (body a s).state
      decidable_of_iff
        (ok s a ∧ ((body a s).fault.isNone = true → Meets body ok as (body a s).state))
        (by rw [Option.isNone_iff_eq_none]; exact Iff.rfl)

variable {body : α → σ → Outcome σ ε φ} {ok : σ → α → Prop}

theorem meets_append {as bs : List α} {s : σ} :
    Meets body ok (as ++ bs) s ↔ Meets body ok as s ∧
      ((forEach body as s).fault = none → Meets body ok bs (forEach body as s).state) := by
  induction as generalizing s with
  | nil => exact ⟨fun h => ⟨trivial, fun _ => h⟩, fun h => h.2 rfl⟩
  | cons a as ih =>
      cases hfault : (body a s).fault with
      | some f =>
          simp [Meets, forEach_cons, andThen_of_fault hfault, hfault]
      | none =>
          simp [Meets, forEach_cons, andThen_of_ok hfault, hfault, ih, and_assoc]

/-- **The rule of histories.** What relates a state to the events so far, and is kept by every
round that meets the condition, relates the final state to all the events, whether or not the loop
is cut short. -/
theorem Meets.history {inv : σ → List ε → Prop}
    (hbody : ∀ a s past, inv s past → ok s a → inv (body a s).state (past ++ (body a s).events))
    {as : List α} {s : σ} {past : List ε} (hs : inv s past) (h : Meets body ok as s) :
    inv (forEach body as s).state (past ++ (forEach body as s).events) := by
  induction as generalizing s past with
  | nil => simpa using hs
  | cons a as ih =>
      have hround := hbody a s past hs h.1
      cases hfault : (body a s).fault with
      | some f =>
          rw [forEach_cons, andThen_of_fault hfault]
          exact hround
      | none =>
          rw [forEach_cons, andThen_of_ok hfault]
          simpa using ih hround (h.2 hfault)

/-- **The loop rule with a condition**: what every round that meets the condition keeps, the loop
keeps. -/
theorem Meets.ensures
    (hbody : ∀ a s, P s → ok s a → Ensures P Q F (body a s))
    {as : List α} {s : σ} (hs : P s) (h : Meets body ok as s) :
    Ensures P Q F (forEach body as s) := by
  induction as generalizing s with
  | nil => exact ensures_done hs
  | cons a as ih => exact (hbody a s hs h.1).andThen fun hfault hstate => ih hstate (h.2 hfault)

/-- A condition that an invariant implies is met by every round. -/
theorem meets_of_invariant {inv : σ → Prop} (hok : ∀ s a, inv s → ok s a)
    (hbody : ∀ s a, inv s → inv (body a s).state) {s : σ} (hs : inv s) (as : List α) :
    Meets body ok as s := by
  induction as generalizing s with
  | nil => trivial
  | cons a as ih => exact ⟨hok s a hs, fun _ => ih (hbody s a hs)⟩

theorem meets_true (as : List α) (s : σ) : Meets body (fun _ _ => True) as s := by
  induction as generalizing s with
  | nil => trivial
  | cons a as ih => exact ⟨trivial, fun _ => ih _⟩

/-- Where an invariant makes one condition imply another, so it is along a loop. -/
theorem Meets.imp {ok' : σ → α → Prop} (inv : σ → Prop) (hok : ∀ s a, inv s → ok s a → ok' s a)
    (hbody : ∀ s a, inv s → (body a s).fault = none → inv (body a s).state) {as : List α} {s : σ}
    (hs : inv s) (h : Meets body ok as s) : Meets body ok' as s := by
  induction as generalizing s with
  | nil => trivial
  | cons a as ih =>
      exact ⟨hok s a hs h.1, fun hreturns => ih (hbody s a hs hreturns) (h.2 hreturns)⟩

/-! ## The rounds of a loop -/

/-- The rounds that a loop comes to, each with the state it finds. -/
def rounds (body : α → σ → Outcome σ ε φ) : List α → σ → List (σ × α)
  | [], _ => []
  | a :: as, s =>
      (s, a) ::
        match (body a s).fault with
        | none => rounds body as (body a s).state
        | some _ => []

theorem rounds_singleton (a : α) (s : σ) : rounds body [a] s = [(s, a)] := by
  unfold rounds
  split <;> rfl

theorem rounds_append {as : List α} {s : σ} (h : (forEach body as s).fault = none) (bs : List α) :
    rounds body (as ++ bs) s = rounds body as s ++ rounds body bs (forEach body as s).state := by
  induction as generalizing s with
  | nil => rfl
  | cons a as ih =>
      obtain ⟨hround, hrest⟩ := returns_andThen h
      rw [forEach_cons, andThen_of_ok hround, List.cons_append]
      simp only [rounds, hround, ih hrest, List.cons_append]

/-- A loop comes to its rounds in order. -/
theorem rounds_inOrder (as : List α) (s : σ) : (rounds body as s).map (·.2) <+: as := by
  induction as generalizing s with
  | nil => exact List.nil_prefix
  | cons a as ih =>
      unfold rounds
      split
      · exact List.cons_prefix_cons.mpr ⟨rfl, ih _⟩
      · exact List.cons_prefix_cons.mpr ⟨rfl, List.nil_prefix⟩

/-- **The rule of loops that are cut short.** If every round but the last meets a condition under
which its fault would have the property `F`, the loop comes to all its rounds, or ends in such a
fault. -/
theorem rounds_eq_or (inv : σ → Prop) (F : σ → φ → Prop)
    (hbody : ∀ s a, inv s → inv (body a s).state)
    (hok : ∀ s a f, inv s → ok s a → (body a s).fault = some f → F (body a s).state f)
    {as : List α} {s : σ} (hs : inv s) (h : Meets body ok as.dropLast s) :
    (rounds body as s).map (·.2) = as ∨
      ∃ f, (forEach body as s).fault = some f ∧ F (forEach body as s).state f := by
  induction as generalizing s with
  | nil => exact .inl rfl
  | cons a as ih =>
      cases as with
      | nil => exact .inl (by rw [rounds_singleton]; rfl)
      | cons b bs =>
          rw [List.dropLast_cons_cons] at h
          cases hfault : (body a s).fault with
          | some f =>
              refine .inr ⟨f, ?_⟩
              rw [forEach_cons, andThen_of_fault hfault]
              exact ⟨hfault, hok s a f hs h.1 hfault⟩
          | none =>
              rw [forEach_cons, andThen_of_ok hfault]
              refine (ih (hbody s a hs) (h.2 hfault)).imp_left fun hall => ?_
              rw [rounds, hfault, List.map_cons, hall]

/-! ## What a state has to do with what has happened -/

/-- The call keeps what relates the state to a summary of the events, made with `note`. -/
def Keeps {τ : Type} (note : τ → ε → τ) (inv : σ → τ → Prop) (s : σ) (o : Outcome σ ε φ) : Prop :=
  ∀ t, inv s t → inv o.state (o.events.foldl note t)

section

variable {τ : Type} {note : τ → ε → τ} {inv : σ → τ → Prop} {s : σ}

theorem keeps_done {s' : σ} (h : ∀ t, inv s t → inv s' t) :
    Keeps note inv s (done s' : Outcome σ ε φ) := h

theorem keeps_fail {s' : σ} (h : ∀ t, inv s t → inv s' t) (f : φ) :
    Keeps note inv s (fail s' f) := h

theorem keeps_emit {s' : σ} {es : List ε} (h : ∀ t, inv s t → inv s' (es.foldl note t)) :
    Keeps note inv s (emit s' es : Outcome σ ε φ) := h

theorem Keeps.andThen {o : Outcome σ ε φ} {k : σ → Outcome σ ε φ} (ho : Keeps note inv s o)
    (hk : Keeps note inv o.state (k o.state)) : Keeps note inv s (o.andThen k) := by
  intro t ht
  cases hfault : o.fault with
  | some f =>
      rw [andThen_of_fault hfault]
      exact ho t ht
  | none =>
      rw [andThen_of_ok hfault, List.foldl_append]
      exact hk _ (ho t ht)

theorem keeps_forEach_of_mem {body : α → σ → Outcome σ ε φ} {as : List α}
    (hbody : ∀ a ∈ as, ∀ s, Keeps note inv s (body a s)) (s : σ) :
    Keeps note inv s (forEach body as s) := by
  induction as generalizing s with
  | nil => exact keeps_done fun _ h => h
  | cons a as ih =>
      exact (hbody a (by simp) s).andThen (ih (fun b hb => hbody b (List.mem_cons_of_mem a hb)) _)

theorem keeps_forEach {body : α → σ → Outcome σ ε φ} (hbody : ∀ a s, Keeps note inv s (body a s))
    (as : List α) (s : σ) : Keeps note inv s (forEach body as s) :=
  keeps_forEach_of_mem (fun a _ => hbody a) s

/-- The summary of the rounds that a loop comes to. -/
def summary (body : α → σ → Outcome σ ε φ) (next : τ → σ → α → τ) (t : τ) (as : List α) (s : σ) : τ :=
  (rounds body as s).foldl (fun t round => next t round.1 round.2) t

/-- **The rule of summaries.** What relates a state to the summary of the rounds so far, and is kept by
every round that meets the condition and returns, implies of the final state what it implies of every
round, also of one that is cut short. -/
theorem Meets.summary_of_returns {body : α → σ → Outcome σ ε φ} {ok : σ → α → Prop}
    {next : τ → σ → α → τ} {weak : σ → τ → Prop} (hweak : ∀ s t, inv s t → weak s t)
    (hbody : ∀ a s t, inv s t → ok s a → weak (body a s).state (next t s a) ∧
      ((body a s).fault = none → inv (body a s).state (next t s a)))
    {as : List α} {t : τ} (hs : inv s t) (h : Meets body ok as s) :
    weak (forEach body as s).state (summary body next t as s) := by
  induction as generalizing s t with
  | nil => exact hweak s t hs
  | cons a as ih =>
      obtain ⟨hround, hreturns⟩ := hbody a s t hs h.1
      unfold Outcome.summary rounds
      rw [forEach_cons, List.foldl_cons]
      cases hfault : (body a s).fault with
      | some f =>
          rw [andThen_of_fault hfault]
          exact hround
      | none =>
          rw [andThen_of_ok hfault]
          exact ih (hreturns hfault) (h.2 hfault)

theorem forEach_summary {body : α → σ → Outcome σ ε φ} {next : τ → σ → α → τ}
    (hbody : ∀ a s t, inv s t → inv (body a s).state (next t s a)) (as : List α) {t : τ}
    (hs : inv s t) : inv (forEach body as s).state (summary body next t as s) :=
  (meets_true as s).summary_of_returns (fun _ _ h => h)
    (fun a s t hs _ => ⟨hbody a s t hs, fun _ => hbody a s t hs⟩) hs

end

/-! ## Runs of calls whose faults are caught between them -/

/-- The state after a list of calls; a fault ends its own call and nothing else. -/
def runState (step : σ → α → Outcome σ ε φ) (s : σ) (as : List α) : σ :=
  as.foldl (fun s a => (step s a).state) s

/-- The events of a list of calls, in order. -/
def runEvents (step : σ → α → Outcome σ ε φ) : σ → List α → List ε
  | _, [] => []
  | s, a :: as => (step s a).events ++ runEvents step (step s a).state as

@[simp] theorem runState_append (step : σ → α → Outcome σ ε φ) (s : σ) (as bs : List α) :
    runState step s (as ++ bs) = runState step (runState step s as) bs := by
  simp [runState, List.foldl_append]

/-! ## Two runs side by side -/

/-- The calls of two runs correspond, one by one: each pair is `alike` in the state where the first
run has come to. -/
def Matched (step : σ → α → Outcome σ ε φ) (alike : σ → α → α → Prop) :
    σ → List α → List α → Prop
  | _, [], [] => True
  | s, a :: as, b :: bs => alike s a b ∧ Matched step alike (step s a).state as bs
  | _, [], _ :: _ => False
  | _, _ :: _, [] => False

/-- **The unwinding rule.** If from related states every two calls that are alike lead to related
states and show the observer `view` the same, then matched runs show the observer the same. -/
theorem unwinding {ω : Type} {step : σ → α → Outcome σ ε φ} {alike : σ → α → α → Prop}
    {view : ε → Option ω} (rel : σ → σ → Prop)
    (hstep : ∀ s s' a b, rel s s' → alike s a b →
      rel (step s a).state (step s' b).state ∧
        (step s a).events.filterMap view = (step s' b).events.filterMap view)
    {s s' : σ} (hs : rel s s') {as bs : List α} (h : Matched step alike s as bs) :
    (runEvents step s as).filterMap view = (runEvents step s' bs).filterMap view := by
  induction as generalizing s s' bs with
  | nil =>
      cases bs with
      | nil => rfl
      | cons b bs => exact h.elim
  | cons a as ih =>
      cases bs with
      | nil => exact h.elim
      | cons b bs =>
          obtain ⟨hrel, hview⟩ := hstep s s' a b hs h.1
          rw [runEvents, runEvents, List.filterMap_append, List.filterMap_append, hview,
            ih hrel h.2]

end Outcome
