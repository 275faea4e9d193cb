import SquawkBus.Library.Outcome

/-!
# Calls that return a value or throw

`Call σ ε χ α` is an `Outcome` with a value: the state that one call leaves behind, the events that
happened on the way, in order, and the value or the exception. An exception undoes nothing. The
constructs of the language are sequencing, a call on a part of the state, the `try` block and the
`while` loop.

`Call.Post` is a postcondition over the whole trace: what holds of the value, of the state and of the
events so far when the call returns, and what holds of the exception, the state and the events when
it throws. Each construct has its rule, and the loop has three more: it ends when a measure goes
down, what comes after its end does not matter, and it can be cut anywhere.
-/

/-- The result of one call: final state, events in order, and the value or the exception. -/
structure Call (σ ε χ α : Type) where
  state : σ
  events : List ε
  result : Except χ α

namespace Call

variable {σ τ ε χ φ α β ι : Type}

/-! ## The constructs -/

def ret (a : α) (s : σ) : Call σ ε χ α := ⟨s, [], .ok a⟩

def throws (e : χ) (s : σ) : Call σ ε χ α := ⟨s, [], .error e⟩

/-- Sequencing: `k` goes on with the value, unless an exception came first. -/
def andThen (c : Call σ ε χ α) (k : α → σ → Call σ ε χ β) : Call σ ε χ β :=
  match c.result with
  | .ok a => ⟨(k a c.state).state, c.events ++ (k a c.state).events, (k a c.state).result⟩
  | .error e => ⟨c.state, c.events, .error e⟩

/-- A call on a part of the state; `put` puts the part back. -/
def within (put : σ → τ) (c : Call σ ε χ α) : Call τ ε χ α := ⟨put c.state, c.events, c.result⟩

/-- `try` and `catch`: `k` goes on from the state in which the exception was thrown. -/
def catching (c : Call σ ε χ α) (k : χ → σ → Call σ ε φ α) : Call σ ε φ α :=
  match c.result with
  | .ok a => ⟨c.state, c.events, .ok a⟩
  | .error e => ⟨(k e c.state).state, c.events ++ (k e c.state).events, (k e c.state).result⟩

/-- The call without the value it returns. -/
def toOutcome (c : Call σ ε χ α) : Outcome σ ε χ :=
  ⟨c.state, c.events, match c.result with
    | .ok _ => none
    | .error e => some e⟩

/-- `bool going = true; while (going && cond) going = body;`, one round for each input. When the
inputs run out the loop is left where it is. -/
def loop (cond : σ → Bool) (body : ι → σ → Call σ ε χ Bool) : List ι → σ → Call σ ε χ Bool
  | [], s => ret true s
  | i :: is, s =>
      if cond s then
        (body i s).andThen fun going s => if going then loop cond body is s else ret false s
      else ret true s

/-- Whether a loop that is where this call left it has another round. -/
def goesOn (cond : σ → Bool) (c : Call σ ε χ Bool) : Bool :=
  match c.result with
  | .ok going => going && cond c.state
  | .error _ => false

/-! ### How they go on -/

theorem andThen_of_ok {c : Call σ ε χ α} {a : α} (h : c.result = .ok a)
    (k : α → σ → Call σ ε χ β) :
    c.andThen k = ⟨(k a c.state).state, c.events ++ (k a c.state).events, (k a c.state).result⟩ := by
  rw [andThen, h]

theorem andThen_of_error {c : Call σ ε χ α} {e : χ} (h : c.result = .error e)
    (k : α → σ → Call σ ε χ β) : c.andThen k = ⟨c.state, c.events, .error e⟩ := by
  rw [andThen, h]

theorem catching_of_ok {c : Call σ ε χ α} {a : α} (h : c.result = .ok a)
    (k : χ → σ → Call σ ε φ α) : c.catching k = ⟨c.state, c.events, .ok a⟩ := by
  rw [catching, h]

@[simp] theorem ret_andThen (a : α) (s : σ) (k : α → σ → Call σ ε χ β) :
    (ret a s).andThen k = k a s := rfl

/-! ## Postconditions -/

/-- What holds at the end of a call that was made after the events `h`. -/
def Post (h : List ε) (c : Call σ ε χ α) (Q : α → σ → List ε → Prop)
    (E : χ → σ → List ε → Prop) : Prop :=
  match c.result with
  | .ok a => Q a c.state (h ++ c.events)
  | .error e => E e c.state (h ++ c.events)

variable {h : List ε} {Q : α → σ → List ε → Prop} {E : χ → σ → List ε → Prop}

theorem post_ret {a : α} {s : σ} (hq : Q a s h) : Post h (ret a s) Q E := by
  show Q a s (h ++ [])
  rwa [List.append_nil]

theorem post_throws {e : χ} {s : σ} (he : E e s h) : Post h (throws e s) Q E := by
  show E e s (h ++ [])
  rwa [List.append_nil]

theorem Post.of_ok {c : Call σ ε χ α} (hc : Post h c Q E) {a : α} (ha : c.result = .ok a) :
    Q a c.state (h ++ c.events) := by
  unfold Post at hc
  rwa [ha] at hc

theorem Post.of_error {c : Call σ ε χ α} (hc : Post h c Q E) {e : χ} (he : c.result = .error e) :
    E e c.state (h ++ c.events) := by
  unfold Post at hc
  rwa [he] at hc

theorem Post.mono {Q' : α → σ → List ε → Prop} {E' : χ → σ → List ε → Prop} {c : Call σ ε χ α}
    (hc : Post h c Q E) (hq : ∀ a s h', Q a s h' → Q' a s h')
    (he : ∀ e s h', E e s h' → E' e s h') : Post h c Q' E' := by
  unfold Post at hc ⊢
  cases hresult : c.result with
  | ok a =>
      rw [hresult] at hc
      exact hq _ _ _ hc
  | error e =>
      rw [hresult] at hc
      exact he _ _ _ hc

/-- What holds both when the call returns and when it throws. -/
theorem Post.always {P : σ → List ε → Prop} {c : Call σ ε χ α}
    (hc : Post h c (fun _ => P) fun _ => P) : P c.state (h ++ c.events) := by
  cases hresult : c.result with
  | ok a => exact hc.of_ok hresult
  | error e => exact hc.of_error hresult

theorem post_of_always {P : σ → List ε → Prop} {c : Call σ ε χ α} (hc : P c.state (h ++ c.events)) :
    Post h c (fun _ => P) fun _ => P := by
  unfold Post
  cases c.result <;> exact hc

/-- **Sequencing**: what holds after the first call is what the second starts with. -/
theorem post_andThen {R : α → σ → List ε → Prop} {Q : β → σ → List ε → Prop} {c : Call σ ε χ α}
    {k : α → σ → Call σ ε χ β} (hc : Post h c R E)
    (hk : ∀ a s h', R a s h' → Post h' (k a s) Q E) : Post h (c.andThen k) Q E := by
  cases hresult : c.result with
  | ok a =>
      rw [andThen_of_ok hresult]
      have hrest := hk a c.state (h ++ c.events) (hc.of_ok hresult)
      unfold Post at hrest ⊢
      simpa only [List.append_assoc] using hrest
  | error e =>
      rw [andThen_of_error hresult]
      exact hc.of_error hresult

theorem post_within {put : σ → τ} {Q : α → τ → List ε → Prop} {E : χ → τ → List ε → Prop}
    {c : Call σ ε χ α} (hc : Post h c (fun a s => Q a (put s)) fun e s => E e (put s)) :
    Post h (c.within put) Q E := hc

/-- **The `try` block**: what holds when the exception is thrown is what the handler starts with. -/
theorem post_catching {E : φ → σ → List ε → Prop} {R : χ → σ → List ε → Prop} {c : Call σ ε χ α}
    {k : χ → σ → Call σ ε φ α} (hc : Post h c Q R) (hk : ∀ e s h', R e s h' → Post h' (k e s) Q E) :
    Post h (c.catching k) Q E := by
  cases hresult : c.result with
  | ok a =>
      rw [catching_of_ok hresult]
      exact hc.of_ok hresult
  | error e =>
      have hrest := hk e c.state (h ++ c.events) (hc.of_error hresult)
      unfold catching
      rw [hresult]
      unfold Post at hrest ⊢
      simpa only [List.append_assoc] using hrest

/-! ## The loop -/

variable {cond : σ → Bool} {body : ι → σ → Call σ ε χ Bool}

/-- **The invariant rule**: what each round keeps holds wherever the loop is left. -/
theorem post_loop {I : σ → List ε → Prop}
    (hbody : ∀ i s h, cond s = true → I s h → Post h (body i s) (fun _ => I) E) (is : List ι) {s : σ}
    (hs : I s h) : Post h (loop cond body is s) (fun _ => I) E := by
  induction is generalizing s h with
  | nil => exact post_ret hs
  | cons i is ih =>
      unfold loop
      split
      · next hcond =>
        refine post_andThen (hbody i s h hcond hs) fun going s' h' hs' => ?_
        split
        · exact ih hs'
        · exact post_ret hs'
      · exact post_ret hs

/-- **The loop ends** when each round that goes on makes the measure smaller. -/
theorem goesOn_loop (μ : σ → Nat)
    (hbody : ∀ i s, cond s = true → (body i s).result = .ok true → μ (body i s).state < μ s)
    {is : List ι} {s : σ} (hlength : μ s < is.length) : (loop cond body is s).goesOn cond = false := by
  induction is generalizing s with
  | nil => exact absurd hlength (Nat.not_lt_zero _)
  | cons i is ih =>
      unfold loop
      split
      · next hcond =>
        cases hresult : (body i s).result with
        | error e =>
            rw [andThen_of_error hresult]
            rfl
        | ok going =>
            rw [andThen_of_ok hresult]
            cases going with
            | false => rfl
            | true =>
                have hless := hbody i s hcond hresult
                exact ih (by
                  rw [List.length_cons] at hlength
                  omega)
      · next hcond =>
        rw [Bool.not_eq_true] at hcond
        exact hcond

/-- Once a loop has ended, further inputs do not matter. -/
theorem loop_append_of_end {is : List ι} {s : σ} (hend : (loop cond body is s).goesOn cond = false)
    (js : List ι) : loop cond body (is ++ js) s = loop cond body is s := by
  induction is generalizing s with
  | nil =>
      have hcond : cond s = false := hend
      cases js with
      | nil => rfl
      | cons j js =>
          show (if cond s then _ else _) = _
          rw [hcond]
          rfl
  | cons i is ih =>
      rw [List.cons_append, loop, loop]
      rw [loop] at hend
      split
      · next hcond =>
        rw [if_pos hcond] at hend
        cases hresult : (body i s).result with
        | error e => rw [andThen_of_error hresult, andThen_of_error hresult]
        | ok going =>
            rw [andThen_of_ok hresult] at hend ⊢
            rw [andThen_of_ok hresult]
            cases going with
            | false => rfl
            | true => exact congrArg (fun c : Call σ ε χ Bool =>
                (⟨c.state, (body i s).events ++ c.events, c.result⟩ : Call σ ε χ Bool)) (ih hend)
      · rfl

end Call
