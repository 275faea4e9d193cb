import Mathlib.Data.List.Basic
import SquawkBus.Library.Call

/-!
# A queue of buffers emptied into a stream

The bytes that wait to be written are kept in the buffers they came in; of the buffer in front a part
may be gone already. A `Sink` is a stream asked to take some of these bytes: it takes a number of
them, is at its end, would block, or throws. `drain` offers it one chunk of the buffer in front after
the other, until it takes no more.

A sink is **faithful** when the bytes it reports to have taken are those that went out, which the
events of its calls show. Emptying a queue into a faithful sink loses no byte, repeats none, and ends.
-/

/-! ## Attempts -/

/-- How an attempt to move bytes ends that does not throw. -/
inductive Attempt (α : Type) where
  | done (a : α)
  | eof
  | blocked
  deriving DecidableEq

/-- Buffers, each with the number of bytes of it that are gone. -/
abbrev ByteQueue (β : Type) := List (List β × Nat)

namespace ByteQueue

variable {β σ ι ε χ : Type}

/-! ## The queue -/

/-- The bytes that wait. -/
def waiting (queue : ByteQueue β) : List β := queue.flatMap fun entry => entry.1.drop entry.2

/-- `n` more bytes of the buffer in front are gone; with the last of them the buffer is. -/
def advance (n : Nat) : ByteQueue β → ByteQueue β
  | [] => []
  | (buf, offset) :: queue =>
      if offset + n = buf.length then queue else (buf, offset + n) :: queue

/-! ### Offsets -/

/-- No more of a buffer is gone than there was of it. -/
def InBounds (queue : ByteQueue β) : Prop := ∀ entry ∈ queue, entry.2 ≤ entry.1.length

/-- Every buffer has bytes left. -/
def Live (queue : ByteQueue β) : Prop := ∀ entry ∈ queue, entry.2 < entry.1.length

@[simp] theorem waiting_cons (buf : List β) (offset : Nat) (queue : ByteQueue β) :
    waiting ((buf, offset) :: queue) = buf.drop offset ++ waiting queue := by
  simp [waiting]

@[simp] theorem advance_cons (n : Nat) (buf : List β) (offset : Nat) (queue : ByteQueue β) :
    advance n ((buf, offset) :: queue) =
      if offset + n = buf.length then queue else (buf, offset + n) :: queue := rfl

@[simp] theorem waiting_push (queue : ByteQueue β) (buf : List β) :
    waiting (queue ++ [(buf, 0)]) = waiting queue ++ buf := by
  simp [waiting]

/-- **What goes and what then waits** is what waited before. -/
theorem take_append_waiting_advance (buf : List β) (offset n : Nat) (queue : ByteQueue β) :
    (buf.drop offset).take n ++ waiting (advance n ((buf, offset) :: queue)) =
      waiting ((buf, offset) :: queue) := by
  rw [advance_cons]
  split
  · next hall =>
    have htake : (buf.drop offset).take n = buf.drop offset := by
      apply List.take_of_length_le
      rw [List.length_drop]
      omega
    rw [htake, waiting_cons]
  · rw [waiting_cons, waiting_cons, ← List.append_assoc, ← List.drop_drop, List.take_append_drop]

/-- What waits is shorter by what goes. -/
theorem length_waiting_advance {buf : List β} {offset n : Nat} (hn : n ≤ (buf.drop offset).length)
    (queue : ByteQueue β) :
    n + (waiting (advance n ((buf, offset) :: queue))).length =
      (waiting ((buf, offset) :: queue)).length := by
  have hkept := congrArg List.length (take_append_waiting_advance buf offset n queue)
  rwa [List.length_append, List.length_take, Nat.min_eq_left hn] at hkept

theorem InBounds.push {queue : ByteQueue β} (h : InBounds queue) (buf : List β) :
    InBounds (queue ++ [(buf, 0)]) := by
  intro entry hentry
  rcases List.mem_append.mp hentry with hold | hnew
  · exact h entry hold
  · rw [List.mem_singleton.mp hnew]
    exact Nat.zero_le _

theorem InBounds.advance {buf : List β} {offset n : Nat} {queue : ByteQueue β}
    (h : InBounds ((buf, offset) :: queue)) (hn : n ≤ (buf.drop offset).length) :
    InBounds (advance n ((buf, offset) :: queue)) := by
  have hoffset : offset ≤ buf.length := h (buf, offset) List.mem_cons_self
  rw [List.length_drop] at hn
  rw [advance_cons]
  split
  · exact fun entry hentry => h entry (List.mem_cons_of_mem _ hentry)
  · intro entry hentry
    rcases List.mem_cons.mp hentry with rfl | hrest
    · show offset + n ≤ buf.length
      omega
    · exact h entry (List.mem_cons_of_mem _ hrest)

theorem Live.inBounds {queue : ByteQueue β} (h : Live queue) : InBounds queue :=
  fun entry hentry => Nat.le_of_lt (h entry hentry)

/-! ## Sinks -/

/-- A stream that can be asked to take bytes. -/
structure Sink (σ ι ε χ β : Type) where
  isOpen : σ → Bool
  write : ι → List β → σ → Call σ ε χ (Attempt Nat)

/-- How many bytes are gone. -/
def moved : Except χ (Attempt Nat) → Nat
  | .ok (.done n) => n
  | _ => 0

/-- The bytes that went out, `taken` being those of one event, are the first of those offered, as many
as reported; a call that reports bytes reports at least one, and not more than were offered. -/
structure Sink.Faithful (sink : Sink σ ι ε χ β) (taken : ε → List β) : Prop where
  taken_eq : ∀ i buf s, (sink.write i buf s).events.flatMap taken =
    buf.take (moved (sink.write i buf s).result)
  bounds : ∀ i buf s n, (sink.write i buf s).result = .ok (.done n) → 0 < n ∧ n ≤ buf.length

/-- A sink is faithful when its calls are, one by one. -/
theorem Sink.faithful_of_post {sink : Sink σ ι ε χ β} {taken : ε → List β}
    (h : ∀ i buf s, Call.Post [] (sink.write i buf s)
      (fun attempt _ events => events.flatMap taken = buf.take (moved (.ok attempt : Except χ _)) ∧
        ∀ n, attempt = .done n → 0 < n ∧ n ≤ buf.length)
      (fun _ _ events => events.flatMap taken = [])) : sink.Faithful taken where
  taken_eq := by
    intro i buf s
    cases hresult : (sink.write i buf s).result with
    | ok attempt => exact ((h i buf s).of_ok hresult).1
    | error e => exact (h i buf s).of_error hresult
  bounds := by
    intro i buf s n hdone
    exact ((h i buf s).of_ok hdone).2 n rfl

/-! ### Rounds -/

/-- One round: the sink is offered `count` bytes of the buffer in front, `count` depending on the size
of the buffer and on what of it is gone. -/
def round (sink : Sink σ ι ε χ β) (count : Nat → Nat → Nat) (i : ι) (s : σ × ByteQueue β) :
    Call (σ × ByteQueue β) ε χ Bool :=
  match s.2 with
  | [] => .ret false s
  | (buf, offset) :: _ =>
      ((sink.write i ((buf.drop offset).take (count buf.length offset)) s.1).within (·, s.2)).andThen
        fun attempt t =>
          match attempt with
          | .done n => .ret true (t.1, advance n t.2)
          | .eof => .ret false t
          | .blocked => .ret false t

/-- There is a stream to write to and something to write. -/
def ready (sink : Sink σ ι ε χ β) (s : σ × ByteQueue β) : Bool := sink.isOpen s.1 && !s.2.isEmpty

/-- The queue is emptied into the sink, one round for each input. -/
def drain (sink : Sink σ ι ε χ β) (count : Nat → Nat → Nat) :
    List ι → σ × ByteQueue β → Call (σ × ByteQueue β) ε χ Bool :=
  Call.loop (ready sink) (round sink count)

variable {sink : Sink σ ι ε χ β} {taken : ε → List β} {count : Nat → Nat → Nat}

theorem round_cons (sink : Sink σ ι ε χ β) (count : Nat → Nat → Nat) (i : ι) (s : σ) (buf : List β)
    (offset : Nat) (queue : ByteQueue β) :
    round sink count i (s, (buf, offset) :: queue) =
      ((sink.write i ((buf.drop offset).take (count buf.length offset)) s).within
        (·, (buf, offset) :: queue)).andThen fun attempt t =>
          match attempt with
          | .done n => .ret true (t.1, advance n t.2)
          | .eof => .ret false t
          | .blocked => .ret false t := rfl

/-- **What a round does**: when the sink takes bytes they are gone from the buffer in front and another
round may follow; otherwise the queue stays as it is and no round follows. -/
theorem round_cases (sink : Sink σ ι ε χ β) (count : Nat → Nat → Nat) (i : ι) (s : σ) (buf : List β)
    (offset : Nat) (queue : ByteQueue β) :
    let call := sink.write i ((buf.drop offset).take (count buf.length offset)) s
    (∃ n, call.result = .ok (.done n) ∧ round sink count i (s, (buf, offset) :: queue) =
      ⟨(call.state, advance n ((buf, offset) :: queue)), call.events, .ok true⟩) ∨
    ((call.result = .ok .eof ∨ call.result = .ok .blocked) ∧
      round sink count i (s, (buf, offset) :: queue) =
        ⟨(call.state, (buf, offset) :: queue), call.events, .ok false⟩) ∨
    (∃ e, call.result = .error e ∧ round sink count i (s, (buf, offset) :: queue) =
      ⟨(call.state, (buf, offset) :: queue), call.events, .error e⟩) := by
  intro call
  let put : σ → σ × ByteQueue β := (·, (buf, offset) :: queue)
  rw [round_cons]
  cases hresult : call.result with
  | error e =>
      refine .inr (.inr ⟨e, rfl, ?_⟩)
      rw [Call.andThen_of_error (c := call.within put) hresult]
      rfl
  | ok attempt =>
      rw [Call.andThen_of_ok (c := call.within put) hresult]
      cases attempt with
      | done n => exact .inl ⟨n, rfl, by simp [Call.ret, Call.within, put]⟩
      | eof => exact .inr (.inl ⟨.inl rfl, by simp [Call.ret, Call.within, put]⟩)
      | blocked => exact .inr (.inl ⟨.inr rfl, by simp [Call.ret, Call.within, put]⟩)

/-- A call that is not done has moved nothing. -/
theorem moved_of_stop {result : Except χ (Attempt Nat)}
    (h : (result = .ok .eof ∨ result = .ok .blocked) ∨ ∃ e, result = .error e) : moved result = 0 := by
  rcases h with (rfl | rfl) | ⟨e, rfl⟩ <;> rfl

/-! ## Emptying the queue -/

/-- The loop makes a round when the sink is open and something waits. -/
theorem drain_cons (sink : Sink σ ι ε χ β) (count : Nat → Nat → Nat) {s : σ}
    (hopen : sink.isOpen s = true) (i : ι) (is : List ι) (entry : List β × Nat) (queue : ByteQueue β) :
    drain sink count (i :: is) (s, entry :: queue) =
      (round sink count i (s, entry :: queue)).andThen fun going t =>
        if going then drain sink count is t else .ret false t := by
  have hready : ready sink (s, entry :: queue) = true := by simp [ready, hopen]
  unfold drain
  rw [Call.loop, if_pos hready]

/-- The loop after a round in which the sink takes bytes. -/
theorem drain_of_done (sink : Sink σ ι ε χ β) (count : Nat → Nat → Nat) {i : ι} {s s' : σ}
    {buf : List β} {offset n : Nat} {events : List ε} (hopen : sink.isOpen s = true)
    (h : sink.write i ((buf.drop offset).take (count buf.length offset)) s =
      ⟨s', events, .ok (.done n)⟩) (is : List ι) (queue : ByteQueue β) :
    let rest := drain sink count is (s', advance n ((buf, offset) :: queue))
    drain sink count (i :: is) (s, (buf, offset) :: queue) =
      ⟨rest.state, events ++ rest.events, rest.result⟩ := by
  rw [drain_cons sink count hopen, round_cons, h]
  simp [Call.andThen, Call.within, Call.ret]

/-- The loop after a round in which the sink is at its end or would block. -/
theorem drain_of_stop (sink : Sink σ ι ε χ β) (count : Nat → Nat → Nat) {i : ι} {s s' : σ}
    {buf : List β} {offset : Nat} {events : List ε} {attempt : Attempt Nat}
    (hopen : sink.isOpen s = true)
    (h : sink.write i ((buf.drop offset).take (count buf.length offset)) s =
      ⟨s', events, .ok attempt⟩) (hstop : attempt = .eof ∨ attempt = .blocked) (is : List ι)
    (queue : ByteQueue β) :
    drain sink count (i :: is) (s, (buf, offset) :: queue) =
      ⟨(s', (buf, offset) :: queue), events, .ok false⟩ := by
  rw [drain_cons sink count hopen, round_cons, h]
  rcases hstop with rfl | rfl
  · simp [Call.andThen, Call.within, Call.ret]
  · simp [Call.andThen, Call.within, Call.ret]

/-- The loop after a round in which the sink throws. -/
theorem drain_of_error (sink : Sink σ ι ε χ β) (count : Nat → Nat → Nat) {i : ι} {s s' : σ}
    {buf : List β} {offset : Nat} {events : List ε} {e : χ} (hopen : sink.isOpen s = true)
    (h : sink.write i ((buf.drop offset).take (count buf.length offset)) s =
      ⟨s', events, .error e⟩) (is : List ι) (queue : ByteQueue β) :
    drain sink count (i :: is) (s, (buf, offset) :: queue) =
      ⟨(s', (buf, offset) :: queue), events, .error e⟩ := by
  rw [drain_cons sink count hopen, round_cons, h]
  rfl

/-! ### What the loop keeps -/

/-- What a round reads of the buffer in front is no more than what is left of it. -/
theorem bounds_of_done (hsink : sink.Faithful taken) {i : ι} {s : σ} {buf : List β} {offset n : Nat}
    (h : (sink.write i ((buf.drop offset).take (count buf.length offset)) s).result = .ok (.done n)) :
    0 < n ∧ n ≤ count buf.length offset ∧ n ≤ (buf.drop offset).length := by
  obtain ⟨hpos, hle⟩ := hsink.bounds _ _ _ _ h
  rw [List.length_take] at hle
  exact ⟨hpos, by omega, by omega⟩

/-- **A round loses nothing and repeats nothing.** -/
theorem round_keeps (hsink : sink.Faithful taken) (i : ι) (s : σ × ByteQueue β) :
    (round sink count i s).events.flatMap taken ++ waiting (round sink count i s).state.2 =
      waiting s.2 := by
  obtain ⟨s, queue⟩ := s
  cases queue with
  | nil => rfl
  | cons entry queue =>
      obtain ⟨buf, offset⟩ := entry
      rcases round_cases sink count i s buf offset queue with
        ⟨n, hdone, heq⟩ | ⟨hstop, heq⟩ | ⟨e, hthrown, heq⟩
      · obtain ⟨-, hcount, -⟩ := bounds_of_done hsink hdone
        rw [heq]
        show (sink.write _ _ _).events.flatMap taken ++ _ = _
        rw [hsink.taken_eq, hdone, moved, List.take_take, Nat.min_eq_left hcount]
        exact take_append_waiting_advance buf offset n queue
      · rw [heq]
        show (sink.write _ _ _).events.flatMap taken ++ _ = _
        rw [hsink.taken_eq, moved_of_stop (.inl hstop), List.take_zero, List.nil_append]
      · rw [heq]
        show (sink.write _ _ _).events.flatMap taken ++ _ = _
        rw [hsink.taken_eq, moved_of_stop (.inr ⟨e, hthrown⟩), List.take_zero, List.nil_append]

/-- What is kept when the sink takes a part of the buffer in front is kept by a round. -/
theorem round_invariant (hsink : sink.Faithful taken) {P : ByteQueue β → Prop}
    (hadvance : ∀ buf offset n queue, P ((buf, offset) :: queue) → n ≤ (buf.drop offset).length →
      P (advance n ((buf, offset) :: queue)))
    (i : ι) {s : σ × ByteQueue β} (h : P s.2) : P (round sink count i s).state.2 := by
  obtain ⟨s, queue⟩ := s
  cases queue with
  | nil => exact h
  | cons entry queue =>
      obtain ⟨buf, offset⟩ := entry
      rcases round_cases sink count i s buf offset queue with
        ⟨n, hdone, heq⟩ | ⟨-, heq⟩ | ⟨e, -, heq⟩
      · rw [heq]
        exact hadvance _ _ _ _ h (bounds_of_done hsink hdone).2.2
      · rw [heq]
        exact h
      · rw [heq]
        exact h

/-- **The queue is a faithful stream of bytes**: wherever the loop is left, the bytes gone and those
that still wait are the bytes that waited. -/
theorem drain_keeps (hsink : sink.Faithful taken) (is : List ι) (s : σ × ByteQueue β) :
    (drain sink count is s).events.flatMap taken ++ waiting (drain sink count is s).state.2 =
      waiting s.2 := by
  let kept : σ × ByteQueue β → List ε → Prop :=
    fun t h => h.flatMap taken ++ waiting t.2 = waiting s.2
  have hpost : Call.Post [] (drain sink count is s) (fun _ => kept) fun _ => kept := by
    refine Call.post_loop (fun i t h _ ht => Call.post_of_always ?_) is rfl
    show (h ++ _).flatMap taken ++ _ = _
    rw [List.flatMap_append, List.append_assoc, round_keeps hsink]
    exact ht
  exact hpost.always

theorem drain_invariant (hsink : sink.Faithful taken) {P : ByteQueue β → Prop}
    (hadvance : ∀ buf offset n queue, P ((buf, offset) :: queue) → n ≤ (buf.drop offset).length →
      P (advance n ((buf, offset) :: queue)))
    (is : List ι) {s : σ × ByteQueue β} (h : P s.2) : P (drain sink count is s).state.2 := by
  have hpost : Call.Post [] (drain sink count is s) (fun _ t _ => P t.2) fun _ t _ => P t.2 :=
    Call.post_loop (I := fun (t : σ × ByteQueue β) _ => P t.2)
      (fun i t h _ ht => Call.post_of_always (round_invariant hsink hadvance i ht)) is h
  exact hpost.always

/-- **The invariant rule** for the sink: what each write to an open sink keeps holds wherever the loop is
left. -/
theorem post_drain {I : σ → List ε → Prop} {E : χ → σ → List ε → Prop}
    (hwrite : ∀ i buf s h, sink.isOpen s = true → I s h →
      Call.Post h (sink.write i buf s) (fun _ => I) E)
    (is : List ι) {s : σ × ByteQueue β} {h : List ε} (hs : I s.1 h) :
    Call.Post h (drain sink count is s) (fun _ t => I t.1) fun e t => E e t.1 := by
  refine Call.post_loop (I := fun (t : σ × ByteQueue β) => I t.1) (fun i t h hready ht => ?_) is hs
  obtain ⟨t, queue⟩ := t
  cases queue with
  | nil => exact Call.post_ret ht
  | cons entry queue =>
      obtain ⟨buf, offset⟩ := entry
      have hopen : sink.isOpen t = true := by
        rw [ready, Bool.and_eq_true] at hready
        exact hready.1
      rw [round_cons]
      refine Call.post_andThen (R := fun _ (t : σ × ByteQueue β) => I t.1)
        (hwrite i _ t h hopen ht) fun attempt t' h' ht' => ?_
      cases attempt <;> exact Call.post_ret ht'

/-- **The loop ends**: a round that is followed by another has made the bytes that wait fewer. -/
theorem goesOn_drain (hsink : sink.Faithful taken) {is : List ι} {s : σ × ByteQueue β}
    (hlength : (waiting s.2).length < is.length) :
    (drain sink count is s).goesOn (ready sink) = false := by
  refine Call.goesOn_loop (fun t => (waiting t.2).length) (fun i t _ hgoing => ?_) hlength
  obtain ⟨t, queue⟩ := t
  cases queue with
  | nil => cases hgoing
  | cons entry queue =>
      obtain ⟨buf, offset⟩ := entry
      rcases round_cases sink count i t buf offset queue with
        ⟨n, hdone, heq⟩ | ⟨-, heq⟩ | ⟨e, -, heq⟩
      · obtain ⟨hpos, -, hleft⟩ := bounds_of_done hsink hdone
        have hlength := length_waiting_advance hleft queue
        rw [heq]
        show (waiting (advance n ((buf, offset) :: queue))).length <
          (waiting ((buf, offset) :: queue)).length
        omega
      · rw [heq] at hgoing
        cases hgoing
      · rw [heq] at hgoing
        cases hgoing

end ByteQueue
