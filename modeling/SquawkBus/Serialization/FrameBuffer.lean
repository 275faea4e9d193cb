import SquawkBus.Basic
import Mathlib.Data.List.Infix

/-!
# `FrameBuffer`

A queue of byte fragments with an offset into the first of them. `read` takes bytes off the front
across fragments, popping a fragment only when it is found exhausted; the conversion to
`std::vector<char>` puts the length in front. Memory is taken to be unlimited: an allocation fails
only when it asks for more than `std::vector` can hold at all.

`unread` is what the buffer still has to give, and each operation has one lemma about it.
-/

namespace SquawkBus.Serialization

/-! ## Numbers in network order -/

/-- `network_long_to_buf`: most significant byte first. -/
def networkLongToBuf (num : UInt32) : Bytes :=
  [(num >>> 24).toUInt8, (num >>> 16).toUInt8, (num >>> 8).toUInt8, num.toUInt8]

/-- `buf_to_network_long`. -/
def bufToNetworkLong (buf : Bytes) : UInt32 :=
  buf.foldl (fun num byte => num * 256 + byte.toUInt32) 0

@[simp] theorem length_networkLongToBuf (num : UInt32) : (networkLongToBuf num).length = 4 := rfl

theorem bufToNetworkLong_networkLongToBuf (num : UInt32) :
    bufToNetworkLong (networkLongToBuf num) = num := by
  apply UInt32.toNat_inj.mp
  simp [bufToNetworkLong, networkLongToBuf, Nat.shiftRight_eq_div_pow]
  have := num.toNat_lt
  omega

theorem networkLongToBuf_bufToNetworkLong {buf : Bytes} (h : buf.length = 4) :
    networkLongToBuf (bufToNetworkLong buf) = buf := by
  obtain ⟨a, b, c, d, rfl⟩ : ∃ a b c d, buf = [a, b, c, d] := by
    match buf, h with
    | [a, b, c, d], _ => exact ⟨a, b, c, d, rfl⟩
  have ha := a.toNat_lt
  have hb := b.toNat_lt
  have hc := c.toNat_lt
  have hd := d.toNat_lt
  simp only [networkLongToBuf, bufToNetworkLong, List.foldl_cons, List.foldl_nil,
    List.cons.injEq, and_true]
  refine ⟨?_, ?_, ?_, ?_⟩ <;> apply UInt8.toNat_inj.mp <;>
    simp [Nat.shiftRight_eq_div_pow] <;> omega

/-! ## The buffer -/

/-- The fragments and the offset, which never passes the end of the first fragment. -/
structure FrameBuffer where
  data : List Bytes
  offset : Nat
  offset_le : offset ≤ (data.headD []).length
  deriving DecidableEq

namespace FrameBuffer

/-- The default-constructed buffer. -/
def empty : FrameBuffer := ⟨[], 0, Nat.le_refl 0⟩

/-- The number of bytes held, those of the first fragment that are used up included. -/
def retained (fbuf : FrameBuffer) : Nat := fbuf.data.flatten.length

/-- The sum of the fragment sizes that `std::accumulate` computes in an `int`. -/
def accumulate (data : List Bytes) : Int :=
  data.foldl (fun lhs rhs => int (lhs + rhs.length)) 0

/-- The difference of that `int` and the offset, as a `std::size_t`. -/
def size (fbuf : FrameBuffer) : Nat :=
  ((accumulate fbuf.data - fbuf.offset) % 2 ^ 64).toNat

/-- `data_.push_back(buf)`. -/
def write (fbuf : FrameBuffer) (buf : Bytes) : FrameBuffer where
  data := fbuf.data ++ [buf]
  offset := fbuf.offset
  offset_le := by
    have hle := fbuf.offset_le
    cases hdata : fbuf.data with
    | nil => simp [hdata] at hle; simp [hle]
    | cons front rest => simpa [hdata] using hle

/-- The loop of `read`: `wanted` bytes are still to be copied behind `buf`. -/
def readLoop (fbuf : FrameBuffer) (wanted : Nat) (buf : Bytes) :
    Except Fault (Bytes × FrameBuffer) :=
  if wanted = 0 then .ok (buf, fbuf)
  else
    match fbuf with
    | ⟨[], _, _⟩ => .error .undefined
    | ⟨front :: rest, offset, hle⟩ =>
        if front.length - offset = 0 then
          -- The fragment is popped and the new front looked at, although no byte is copied
          -- before the next round.
          match rest with
          | [] => .error .undefined
          | next :: rest => readLoop ⟨next :: rest, 0, Nat.zero_le _⟩ wanted buf
        else
          let count := min wanted (front.length - offset)
          readLoop ⟨front :: rest, offset + count, by simp only [List.headD_cons] at hle ⊢; omega⟩
            (wanted - count) (buf ++ (front.drop offset).take count)
termination_by fbuf.data.length + wanted
decreasing_by
  · simp
  · simp only [List.length_cons]
    omega

def read (fbuf : FrameBuffer) (len : Nat) : Except Fault (Bytes × FrameBuffer) :=
  readLoop fbuf len []

/-- `operator std::vector<char>`: four bytes of length and then every fragment whole. -/
def toVector (fbuf : FrameBuffer) : Except Fault Bytes :=
  let capacity := (4 + fbuf.size) % 2 ^ 64
  if 2 ^ 63 ≤ capacity then .error (.thrown .lengthError)
  else if capacity < 4 + fbuf.retained then
    -- The copy runs past the end of the vector.
    .error .undefined
  else
    .ok (networkLongToBuf (UInt32.ofNat fbuf.size) ++ fbuf.data.flatten ++
      List.replicate (capacity - (4 + fbuf.retained)) 0)

/-- The bytes that reading has left. -/
def unread (fbuf : FrameBuffer) : Bytes := fbuf.data.flatten.drop fbuf.offset

/-! ## `write` and `size` -/

@[simp] theorem data_write (fbuf : FrameBuffer) (buf : Bytes) :
    (fbuf.write buf).data = fbuf.data ++ [buf] := rfl

@[simp] theorem offset_write (fbuf : FrameBuffer) (buf : Bytes) :
    (fbuf.write buf).offset = fbuf.offset := rfl

theorem length_flatten (fbuf : FrameBuffer) : fbuf.data.flatten.length = fbuf.retained := rfl

@[simp] theorem unread_empty : empty.unread = [] := rfl

theorem offset_le_retained (fbuf : FrameBuffer) : fbuf.offset ≤ fbuf.retained := by
  have hle := fbuf.offset_le
  rw [retained]
  cases hdata : fbuf.data with
  | nil => simpa [hdata] using hle
  | cons front rest =>
      rw [hdata] at hle
      simp only [List.headD_cons, List.flatten_cons, List.length_append] at hle ⊢
      omega

@[simp] theorem unread_write (fbuf : FrameBuffer) (buf : Bytes) :
    (fbuf.write buf).unread = fbuf.unread ++ buf := by
  have hle := fbuf.offset_le_retained
  rw [retained] at hle
  simp [unread, List.drop_append_of_le_length hle]

@[simp] theorem retained_write (fbuf : FrameBuffer) (buf : Bytes) :
    (fbuf.write buf).retained = fbuf.retained + buf.length := by
  simp [retained]

/-- The accumulated size is the number of bytes, wrapped to an `int` as often as it takes. -/
theorem accumulate_eq (data : List Bytes) : accumulate data = int data.flatten.length := by
  induction data using List.reverseRecOn with
  | nil => rfl
  | append_singleton data buf ih =>
      have hacc : accumulate (data ++ [buf]) = int (accumulate data + buf.length) := by
        simp [accumulate]
      rw [hacc, ih, int_int_add]
      simp

theorem size_eq {fbuf : FrameBuffer} (h : fbuf.retained < 2 ^ 31) :
    fbuf.size = fbuf.unread.length := by
  have hle := fbuf.offset_le_retained
  rw [retained] at h hle
  rw [size, accumulate_eq, int_of_bounds (by omega) (by omega), unread, List.length_drop]
  omega

/-! ## `read` -/

@[simp] theorem readLoop_zero (fbuf : FrameBuffer) (buf : Bytes) :
    readLoop fbuf 0 buf = .ok (buf, fbuf) := by
  rw [readLoop.eq_def, if_pos rfl]

/-- The round that finds the front fragment used up. -/
theorem readLoop_pop {front next : Bytes} {rest : List Bytes} {offset wanted : Nat}
    (hle : offset ≤ ((front :: next :: rest).headD []).length) (hwanted : wanted ≠ 0)
    (hexhausted : front.length - offset = 0) (buf : Bytes) :
    readLoop ⟨front :: next :: rest, offset, hle⟩ wanted buf =
      readLoop ⟨next :: rest, 0, Nat.zero_le _⟩ wanted buf := by
  rw [readLoop.eq_def, if_neg hwanted]
  exact if_pos hexhausted

/-- A round that copies what the front fragment has to give. -/
theorem readLoop_copy {front : Bytes} {rest : List Bytes} {offset wanted : Nat}
    (hle : offset ≤ ((front :: rest).headD []).length) (hwanted : wanted ≠ 0)
    (havail : front.length - offset ≠ 0) (buf : Bytes) :
    readLoop ⟨front :: rest, offset, hle⟩ wanted buf =
      readLoop ⟨front :: rest, offset + min wanted (front.length - offset),
        by simp only [List.headD_cons] at hle ⊢; omega⟩
        (wanted - min wanted (front.length - offset))
        (buf ++ (front.drop offset).take (min wanted (front.length - offset))) := by
  rw [readLoop.eq_def, if_neg hwanted]
  exact if_neg havail

theorem readLoop_spec (fbuf : FrameBuffer) (wanted : Nat) (buf : Bytes)
    (h : wanted ≤ fbuf.unread.length) :
    ∃ fbuf', readLoop fbuf wanted buf = .ok (buf ++ fbuf.unread.take wanted, fbuf') ∧
      fbuf'.unread = fbuf.unread.drop wanted ∧ fbuf'.retained ≤ fbuf.retained := by
  induction fbuf, wanted, buf using readLoop.induct with
  | case1 fbuf buf => exact ⟨fbuf, by simp⟩
  | case2 wanted buf hwanted offset hle =>
      simp only [unread, List.flatten_nil, List.drop_nil, List.length_nil] at h
      omega
  | case3 wanted buf hwanted front offset hexhausted hle =>
      simp only [unread, List.flatten_cons, List.flatten_nil, List.append_nil,
        List.length_drop] at h
      omega
  | case4 wanted buf hwanted front offset hexhausted next rest hle _ ih =>
      -- The front fragment is used up: what is unread starts with the next one.
      have hunread : unread ⟨front :: next :: rest, offset, hle⟩ =
          unread ⟨next :: rest, 0, Nat.zero_le _⟩ := by
        simp only [List.headD_cons] at hle
        have hoff : offset = front.length := by omega
        simp [unread, hoff]
      rw [readLoop_pop hle hwanted hexhausted, hunread]
      rw [hunread] at h
      obtain ⟨fbuf', hread, hrest, hret⟩ := ih h
      refine ⟨fbuf', hread, hrest, hret.trans ?_⟩
      simp [retained]
  | case5 wanted buf hwanted front rest offset hle havail count ih =>
      -- What is unread is the part now copied and then what the buffer has left.
      have hunread : unread ⟨front :: rest, offset, hle⟩ =
          (front.drop offset).take count ++
            unread ⟨front :: rest, offset + count,
              by simp only [List.headD_cons] at hle ⊢; omega⟩ := by
        simp only [List.headD_cons] at hle
        simp only [unread, List.flatten_cons]
        rw [List.drop_append_of_le_length hle, List.drop_append_of_le_length (by omega),
          ← List.append_assoc, ← List.drop_drop, List.take_append_drop]
      have hcount : ((front.drop offset).take count).length = count := by
        rw [List.length_take, List.length_drop]
        omega
      rw [hunread, List.length_append, hcount] at h
      obtain ⟨fbuf', hread, hrest, hret⟩ := ih (by omega)
      have hle' : count ≤ wanted := Nat.min_le_left _ _
      refine ⟨fbuf', ?_, ?_, hret⟩
      · have hcopied : ((front.drop offset).take count).take wanted =
            (front.drop offset).take count := List.take_of_length_le (by omega)
        rw [readLoop_copy hle hwanted havail, hread, hunread, List.take_append, hcount, hcopied,
          List.append_assoc]
      · have hcopied : ((front.drop offset).take count).drop wanted = [] :=
          List.drop_eq_nil_of_le (by omega)
        rw [hrest, hunread, List.drop_append, hcount, hcopied, List.nil_append]

/-- **`read` stays within the buffer** when enough is unread: it returns the front of it. -/
theorem read_spec {fbuf : FrameBuffer} {len : Nat} (h : len ≤ fbuf.unread.length) :
    ∃ fbuf', fbuf.read len = .ok (fbuf.unread.take len, fbuf') ∧
      fbuf'.unread = fbuf.unread.drop len ∧ fbuf'.retained ≤ fbuf.retained :=
  readLoop_spec fbuf len [] h

/-- Asked for more than is unread, the loop runs off the end of the fragments. -/
theorem readLoop_short (fbuf : FrameBuffer) (wanted : Nat) (buf : Bytes)
    (h : fbuf.unread.length < wanted) : readLoop fbuf wanted buf = .error .undefined := by
  induction fbuf, wanted, buf using readLoop.induct with
  | case1 fbuf buf => omega
  | case2 wanted buf hwanted offset hle =>
      rw [readLoop.eq_def, if_neg hwanted]
  | case3 wanted buf hwanted front offset hexhausted hle =>
      rw [readLoop.eq_def, if_neg hwanted]
      exact if_pos hexhausted
  | case4 wanted buf hwanted front offset hexhausted next rest hle _ ih =>
      have hunread : unread ⟨front :: next :: rest, offset, hle⟩ =
          unread ⟨next :: rest, 0, Nat.zero_le _⟩ := by
        simp only [List.headD_cons] at hle
        have hoff : offset = front.length := by omega
        simp [unread, hoff]
      rw [readLoop_pop hle hwanted hexhausted]
      rw [hunread] at h
      exact ih h
  | case5 wanted buf hwanted front rest offset hle havail count ih =>
      rw [readLoop_copy hle hwanted havail]
      refine ih ?_
      simp only [unread, List.flatten_cons, List.length_drop, List.length_append,
        List.headD_cons] at h hle ⊢
      omega

/-- **`read` succeeds only within the buffer.** -/
theorem read_eq_ok {fbuf fbuf' : FrameBuffer} {len : Nat} {buf : Bytes}
    (h : fbuf.read len = .ok (buf, fbuf')) :
    len ≤ fbuf.unread.length ∧ buf = fbuf.unread.take len ∧
      fbuf'.unread = fbuf.unread.drop len := by
  by_cases hle : len ≤ fbuf.unread.length
  · obtain ⟨fbuf'', hread, hrest, -⟩ := read_spec hle
    rw [hread] at h
    cases h
    exact ⟨hle, rfl, hrest⟩
  · rw [read, readLoop_short fbuf len [] (by omega)] at h
    cases h

/-- **`read` fails in one way**: it looks at the front of an empty deque, and that exactly when it is
asked for more than is unread. -/
theorem read_eq_error_iff {fbuf : FrameBuffer} {len : Nat} {fault : Fault} :
    fbuf.read len = .error fault ↔ fault = .undefined ∧ fbuf.unread.length < len := by
  by_cases hle : len ≤ fbuf.unread.length
  · obtain ⟨fbuf', hread, -⟩ := read_spec hle
    rw [hread]
    simp only [reduceCtorEq, false_iff, not_and]
    omega
  · rw [read, readLoop_short fbuf len [] (by omega)]
    simp only [Except.error.injEq, eq_comm (a := Fault.undefined)]
    exact ⟨fun h => ⟨h, by omega⟩, fun h => h.1⟩

/-! ## The conversion to `std::vector<char>` -/

/-- **When the conversion succeeds**, and what it gives: nothing has been read from the buffer,
and what it holds fits an `int`. -/
theorem toVector_eq_ok_iff {fbuf : FrameBuffer} {buf : Bytes} :
    fbuf.toVector = .ok buf ↔
      fbuf.offset = 0 ∧ fbuf.retained < 2 ^ 31 ∧
        buf = networkLongToBuf (UInt32.ofNat fbuf.retained) ++ fbuf.data.flatten := by
  have hle := fbuf.offset_le_retained
  constructor
  · intro h
    obtain ⟨k, hk, hlo, hhi⟩ := int_spec fbuf.retained
    have hsize : fbuf.size = ((int fbuf.retained - fbuf.offset) % 2 ^ 64).toNat := by
      rw [size, accumulate_eq, length_flatten]
    simp only [toVector] at h
    have hcap : (4 + fbuf.size) % 2 ^ 64 < 2 ^ 63 := by
      by_contra hbig
      rw [if_pos (by omega)] at h
      cases h
    rw [if_neg (by omega)] at h
    have hroom : 4 + fbuf.retained ≤ (4 + fbuf.size) % 2 ^ 64 := by
      by_contra hsmall
      rw [if_pos (by omega)] at h
      cases h
    rw [if_neg (by omega)] at h
    -- No wrapped size leaves room for all the bytes.
    obtain ⟨hoff, hlt⟩ : fbuf.offset = 0 ∧ fbuf.retained < 2 ^ 31 := by omega
    have hval : fbuf.size = fbuf.retained := by
      rw [hoff, int_of_bounds (by omega) (by omega)] at hsize
      omega
    have hnil : (4 + fbuf.retained) % 2 ^ 64 - (4 + fbuf.retained) = 0 := by omega
    rw [hval, hnil, List.replicate_zero, List.append_nil] at h
    exact ⟨hoff, hlt, (Except.ok.inj h).symm⟩
  · rintro ⟨hoff, hlt, rfl⟩
    have hval : fbuf.size = fbuf.retained := by
      rw [size_eq hlt, unread, hoff, List.drop_zero, retained]
    have hnil : (4 + fbuf.retained) % 2 ^ 64 - (4 + fbuf.retained) = 0 := by omega
    simp only [toVector]
    rw [hval, if_neg (by omega), if_neg (by omega), hnil, List.replicate_zero, List.append_nil]

end FrameBuffer

end SquawkBus.Serialization
