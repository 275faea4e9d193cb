import SquawkBus.Library.Fifo
import SquawkBus.Serialization.FrameBuffer

/-!
# A `FrameBuffer` in use

Runs of `write` and `read` on one buffer, in any order. What the buffer is for is the queue of bytes of
`Library.Fifo`; `FrameBuffer.implements` is the step that makes every bounded run a run of the queue.

`FrameBuffer` carries the bound on its offset in its type, and so cannot even be asked whether a copy
stays within the front fragment. `Members` are the two members as the source declares them, with the
subtraction of the two sizes wrapping around and the copy checked; `FrameBuffer.run_members` says that a
buffer that starts empty goes through the same states either way.
-/

namespace SquawkBus.Serialization

/-! ## Operations -/

/-- A `std::vector<char>`, which has no more elements than a pointer difference can count. -/
abbrev CharVector := { buf : Bytes // buf.length < 2 ^ 63 }

/-- A call on the buffer. -/
inductive BufferOp where
  | write (buf : CharVector)
  | read (len : Nat)

namespace BufferOp

/-- The call as the queue sees it. -/
def toFifo : BufferOp → Fifo.Op UInt8
  | .write buf => .push buf.1
  | .read len => .pop len

/-- The bytes written in a run, in order. -/
def written (ops : List BufferOp) : Bytes := Fifo.pushed (ops.map toFifo)

/-- The number of bytes read in a run. -/
def taken (ops : List BufferOp) : Nat := Fifo.popped (ops.map toFifo)

/-- Every read asks for at most as many bytes as are then unread. -/
def InBounds (ops : List BufferOp) : Prop := Fifo.Bounded (ops.map toFifo)

instance decidableInBounds (ops : List BufferOp) : Decidable (InBounds ops) :=
  inferInstanceAs (Decidable (Fifo.Bounded _))

/-- What one more call adds to a run within bounds. -/
theorem inBounds_concat {ops : List BufferOp} {op : BufferOp} :
    InBounds (ops ++ [op]) ↔
      InBounds ops ∧ taken ops + op.toFifo.popped ≤ (written ops).length := by
  rw [InBounds, List.map_append]
  exact Fifo.bounded_concat_iff

end BufferOp

open BufferOp

namespace FrameBuffer

/-! ## Sessions -/

/-- One call: what it returns, and the buffer it leaves. -/
def apply (fbuf : FrameBuffer) : BufferOp → Except Fault (Bytes × FrameBuffer)
  | .write buf => .ok ([], fbuf.write buf.1)
  | .read len => fbuf.read len

/-- The buffer that a run of calls makes of an empty one. -/
def run (ops : List BufferOp) : Except Fault FrameBuffer := Fifo.run apply empty ops

/-- **A buffer is a queue of bytes**: each call returns what the queue returns. -/
theorem implements : Fifo.Implements toFifo unread apply := by
  intro fbuf op hfits
  cases op with
  | write buf =>
      refine ⟨fbuf.write buf.1, rfl, ?_⟩
      rw [unread_write]
      rfl
  | read len =>
      obtain ⟨fbuf', hread, hrest, -⟩ := @read_spec fbuf len hfits
      refine ⟨fbuf', hread, ?_⟩
      rw [hrest]
      show fbuf.unread.drop len = (fbuf.unread ++ []).drop len
      rw [List.append_nil]

/-- **Runs within bounds.** No call fails, and what is unread is what was written less what was
read. -/
theorem run_ok {ops : List BufferOp} (h : InBounds ops) :
    ∃ fbuf, run ops = .ok fbuf ∧ fbuf.unread = (written ops).drop (taken ops) := by
  obtain ⟨fbuf, hrun, hunread⟩ := implements.run_ok (t := empty) h
  exact ⟨fbuf, hrun, hunread.trans h.queue_eq.1⟩

end FrameBuffer

/-! ## The members without their invariant -/

/-- The members of a `FrameBuffer`. -/
structure Members where
  data : List Bytes
  offset : Nat

namespace Members

def empty : Members := ⟨[], 0⟩

def write (m : Members) (buf : Bytes) : Members := { m with data := m.data ++ [buf] }

/-- The bytes behind the offset. -/
def unread (m : Members) : Bytes := m.data.flatten.drop m.offset

/-- One round of the loop of `read`: the bytes copied, and the members after it. `front()` must not be
asked of an empty deque, nor a byte copied from behind the end of the fragment. -/
def round (m : Members) (wanted : Nat) : Except Fault (Bytes × Members) :=
  match m.data with
  | [] => .error .undefined
  | front :: rest =>
      let available := sizeSub front.length m.offset
      if available = 0 then
        -- The count of this round stays zero although the next fragment may have bytes to give.
        match rest with
        | [] => .error .undefined
        | next :: rest => .ok ([], ⟨next :: rest, 0⟩)
      else
        let count := min wanted available
        if front.length < m.offset + count then .error .undefined
        else .ok ((front.drop m.offset).take count, ⟨front :: rest, m.offset + count⟩)

/-- A round pops a fragment, or copies a byte at least and no more than are wanted. -/
theorem round_lt {m m' : Members} {wanted : Nat} {copied : Bytes} (hwanted : wanted ≠ 0)
    (h : m.round wanted = .ok (copied, m')) :
    m'.data.length + (wanted - copied.length) < m.data.length + wanted := by
  obtain ⟨data, offset⟩ := m
  cases data with
  | nil => cases h
  | cons front rest =>
      simp only [round] at h
      split at h
      · cases rest with
        | nil => cases h
        | cons next rest =>
            cases h
            simp only [List.length_cons, List.length_nil]
            omega
      · next havail =>
        split at h
        · cases h
        · next hinside =>
          cases h
          have hcount : ((front.drop offset).take
              (min wanted (sizeSub front.length offset))).length =
                min wanted (sizeSub front.length offset) := by
            rw [List.length_take, List.length_drop]
            omega
          simp only [hcount]
          omega

/-- The loop of `read`. -/
def readLoop (m : Members) (wanted : Nat) (buf : Bytes) : Except Fault (Bytes × Members) :=
  if wanted = 0 then .ok (buf, m)
  else
    match _ : m.round wanted with
    | .error fault => .error fault
    | .ok (copied, m') => readLoop m' (wanted - copied.length) (buf ++ copied)
termination_by m.data.length + wanted
decreasing_by exact round_lt ‹_› ‹_›

def read (m : Members) (len : Nat) : Except Fault (Bytes × Members) := m.readLoop len []

/-- One call: what it returns, and the members it leaves. -/
def apply (m : Members) : BufferOp → Except Fault (Bytes × Members)
  | .write buf => .ok ([], m.write buf.1)
  | .read len => m.read len

/-- The members after a run of calls on an empty buffer. -/
def run (ops : List BufferOp) : Except Fault Members := Fifo.run apply empty ops

theorem readLoop_zero (m : Members) (buf : Bytes) : m.readLoop 0 buf = .ok (buf, m) := by
  rw [readLoop, if_pos rfl]

theorem readLoop_of_ok {m m' : Members} {wanted : Nat} {copied : Bytes} (hwanted : wanted ≠ 0)
    (h : m.round wanted = .ok (copied, m')) (buf : Bytes) :
    m.readLoop wanted buf = m'.readLoop (wanted - copied.length) (buf ++ copied) := by
  rw [readLoop, if_neg hwanted]
  split
  · next hround =>
    rw [h] at hround
    cases hround
  · next hround =>
    rw [h] at hround
    cases hround
    rfl

theorem readLoop_of_error {m : Members} {wanted : Nat} {fault : Fault} (hwanted : wanted ≠ 0)
    (h : m.round wanted = .error fault) (buf : Bytes) : m.readLoop wanted buf = .error fault := by
  rw [readLoop, if_neg hwanted]
  split
  · next hround =>
    rw [h] at hround
    cases hround
    rfl
  · next hround =>
    rw [h] at hround
    cases hround

end Members

/-! ## The two agree -/

/-- The members of a buffer. -/
def FrameBuffer.members (fbuf : FrameBuffer) : Members := ⟨fbuf.data, fbuf.offset⟩

namespace FrameBuffer

/-- Behind the offset of a buffer the wrapping difference does not wrap. -/
theorem round_members {front : Bytes} {rest : List Bytes} {offset : Nat}
    (hle : offset ≤ ((front :: rest).headD []).length) (wanted : Nat)
    (havail : front.length - offset ≠ 0) :
    (members ⟨front :: rest, offset, hle⟩).round wanted =
      .ok ((front.drop offset).take (min wanted (front.length - offset)),
        ⟨front :: rest, offset + min wanted (front.length - offset)⟩) := by
  have hsub : sizeSub front.length offset = front.length - offset := if_pos hle
  have hinside : ¬ front.length < offset + min wanted (front.length - offset) := by omega
  simp only [members, Members.round, hsub, if_neg havail, if_neg hinside]

theorem round_members_pop {front : Bytes} {rest : List Bytes} {offset : Nat}
    (hle : offset ≤ ((front :: rest).headD []).length) (wanted : Nat)
    (hexhausted : front.length - offset = 0) :
    (members ⟨front :: rest, offset, hle⟩).round wanted =
      match rest with
      | [] => .error .undefined
      | next :: rest => .ok ([], ⟨next :: rest, 0⟩) := by
  have hsub : sizeSub front.length offset = 0 := (if_pos hle).trans hexhausted
  simp only [members, Members.round, hsub, if_true]
  cases rest <;> rfl

/-- **The loop of a buffer is the loop of its members.** -/
theorem readLoop_members (fbuf : FrameBuffer) (wanted : Nat) (buf : Bytes) :
    fbuf.members.readLoop wanted buf =
      (fbuf.readLoop wanted buf).map (Prod.map id members) := by
  induction fbuf, wanted, buf using readLoop.induct with
  | case1 fbuf buf =>
      rw [Members.readLoop_zero, readLoop_zero]
      rfl
  | case2 wanted buf hwanted offset hle =>
      rw [readLoop.eq_def, if_neg hwanted]
      exact Members.readLoop_of_error hwanted rfl buf
  | case3 wanted buf hwanted front offset hexhausted hle =>
      have hread : readLoop ⟨[front], offset, hle⟩ wanted buf = .error .undefined := by
        rw [readLoop.eq_def, if_neg hwanted]
        exact if_pos hexhausted
      rw [Members.readLoop_of_error hwanted (round_members_pop hle wanted hexhausted), hread]
      rfl
  | case4 wanted buf hwanted front offset hexhausted next rest hle _ ih =>
      rw [Members.readLoop_of_ok hwanted (round_members_pop hle wanted hexhausted),
        readLoop_pop hle hwanted hexhausted, ← ih]
      simp [members]
  | case5 wanted buf hwanted front rest offset hle havail count ih =>
      have hcount : ((front.drop offset).take count).length = count := by
        simp only [List.headD_cons] at hle
        rw [List.length_take, List.length_drop]
        omega
      rw [Members.readLoop_of_ok hwanted (round_members hle wanted havail),
        readLoop_copy hle hwanted havail, ← ih, hcount]
      rfl

theorem apply_members (fbuf : FrameBuffer) (op : BufferOp) :
    fbuf.members.apply op = (fbuf.apply op).map (Prod.map id members) := by
  cases op with
  | write buf => rfl
  | read len => exact readLoop_members fbuf len []

/-- **A run of a buffer is a run of its members.** -/
theorem run_members (ops : List BufferOp) : Members.run ops = (run ops).map members :=
  Fifo.run_map apply_members empty ops

end FrameBuffer

/-! ## The result -/

/-- **`FrameBuffer` is a queue of bytes.** After any writes and reads within bounds, in any order, a
read within bounds returns the next bytes in the order they were written and removes exactly those; none
of the calls looks at the front of an empty deque or copies from behind the end of a fragment. -/
theorem read_in_write_order (ops : List BufferOp) (len : Nat)
    (h : InBounds (ops ++ [.read len])) :
    ∃ m m', Members.run ops = .ok m ∧
      m.read len = .ok (((written ops).drop (taken ops)).take len, m') ∧
      m'.unread = (written ops).drop (taken ops + len) := by
  obtain ⟨hops, hlen⟩ := inBounds_concat.mp h
  obtain ⟨fbuf, hrun, hunread⟩ := FrameBuffer.run_ok hops
  have hle : len ≤ fbuf.unread.length := by
    rw [hunread, List.length_drop]
    exact Nat.le_sub_of_add_le' hlen
  obtain ⟨fbuf', hread, hrest, -⟩ := FrameBuffer.read_spec hle
  refine ⟨fbuf.members, fbuf'.members, ?_, ?_, ?_⟩
  · rw [FrameBuffer.run_members, hrun]
    rfl
  · show fbuf.members.readLoop len [] = _
    rw [FrameBuffer.readLoop_members, ← hunread]
    show (fbuf.read len).map _ = _
    rw [hread]
    rfl
  · show fbuf'.unread = _
    rw [hrest, hunread, List.drop_drop]

theorem read_in_write_order_fragments :
    ∃ m m', Members.run [.write ⟨[1, 2], by decide⟩, .write ⟨[], by decide⟩, .read 1,
        .write ⟨[3], by decide⟩] = .ok m ∧
      m.read 2 = .ok ([2, 3], m') ∧ m'.unread = [] :=
  read_in_write_order [.write ⟨[1, 2], by decide⟩, .write ⟨[], by decide⟩, .read 1,
    .write ⟨[3], by decide⟩] 2 (by decide)

end SquawkBus.Serialization
