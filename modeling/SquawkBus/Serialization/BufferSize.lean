import SquawkBus.Serialization.BufferSession

/-!
# What a `FrameBuffer` says of its size

`size` adds the fragments up in an `int`, and the conversion to `std::vector<char>` asks for as much
room as `size` says and then copies every fragment whole, the part already read included. Both are
right on small buffers from which nothing has been read; this module says exactly where else they are,
at every buffer that writes and reads within bounds can reach.
-/

namespace SquawkBus.Serialization

open BufferOp

namespace FrameBuffer

/-! ## The fragments of a reachable buffer -/

/-- Every fragment is a `std::vector<char>`. -/
def FragmentsFit (fbuf : FrameBuffer) : Prop := ∀ fragment ∈ fbuf.data, fragment.length < 2 ^ 63

theorem FragmentsFit.offset_lt {fbuf : FrameBuffer} (h : fbuf.FragmentsFit) :
    fbuf.offset < 2 ^ 63 := by
  have hle := fbuf.offset_le
  cases hdata : fbuf.data with
  | nil =>
      rw [hdata] at hle
      simp only [List.headD_nil, List.length_nil] at hle
      omega
  | cons front rest =>
      have hfront : front.length < 2 ^ 63 := h front (by rw [hdata]; exact List.mem_cons_self)
      rw [hdata] at hle
      exact Nat.lt_of_le_of_lt hle hfront

/-- Reading takes fragments off the front and leaves the others as they are. -/
theorem readLoop_suffix {fbuf fbuf' : FrameBuffer} {wanted : Nat} {buf out : Bytes}
    (h : readLoop fbuf wanted buf = .ok (out, fbuf')) : fbuf'.data <:+ fbuf.data := by
  induction fbuf, wanted, buf using readLoop.induct with
  | case1 fbuf buf =>
      rw [readLoop_zero] at h
      cases h
      exact List.suffix_refl _
  | case2 wanted buf hwanted offset hle =>
      rw [readLoop.eq_def, if_neg hwanted] at h
      cases h
  | case3 wanted buf hwanted front offset hexhausted hle =>
      rw [readLoop_short _ _ _ (by simp [unread]; omega)] at h
      cases h
  | case4 wanted buf hwanted front offset hexhausted next rest hle _ ih =>
      rw [readLoop_pop hle hwanted hexhausted] at h
      exact (ih h).trans (List.suffix_cons front _)
  | case5 wanted buf hwanted front rest offset hle havail count ih =>
      rw [readLoop_copy hle hwanted havail] at h
      exact ih h

theorem FragmentsFit.apply {fbuf fbuf' : FrameBuffer} {op : BufferOp} {out : Bytes}
    (hfit : fbuf.FragmentsFit) (h : fbuf.apply op = .ok (out, fbuf')) : fbuf'.FragmentsFit := by
  cases op with
  | write buf =>
      cases h
      intro fragment hmem
      rcases List.mem_append.mp hmem with hold | hnew
      · exact hfit fragment hold
      · rw [List.mem_singleton.mp hnew]
        exact buf.2
  | read len =>
      intro fragment hmem
      exact hfit fragment ((readLoop_suffix h).subset hmem)

theorem fragmentsFit_run {ops : List BufferOp} {fbuf : FrameBuffer} (h : run ops = .ok fbuf) :
    fbuf.FragmentsFit :=
  Fifo.run_keeps (fun _ _ _ _ hfit happly => hfit.apply happly) (by simp [FragmentsFit, empty]) h

/-! ## `size` -/

theorem unread_length (fbuf : FrameBuffer) : fbuf.unread.length = fbuf.retained - fbuf.offset := by
  rw [unread, List.length_drop, length_flatten]

/-- Below the size that an `int` cannot even represent modulo `2 ^ 64`, `size` is right exactly when the
bytes held fit an `int`. -/
theorem size_eq_unread_iff {fbuf : FrameBuffer} (h : fbuf.retained < 2 ^ 64 - 2 ^ 31) :
    fbuf.size = fbuf.unread.length ↔ fbuf.retained < 2 ^ 31 := by
  refine ⟨fun hsize => ?_, size_eq⟩
  obtain ⟨k, hk, hlo, hhi⟩ := int_spec fbuf.retained
  have hle := fbuf.offset_le_retained
  rw [unread_length, size, accumulate_eq, length_flatten] at hsize
  omega

/-- **When `size` is exact**: at every buffer reached with no more unread than a frame and its prefix,
`size` is the number of bytes written less the number read exactly when the fragments held come to
fewer than `2 ^ 31` bytes. -/
theorem size_exact_iff (ops : List BufferOp) (h : InBounds ops)
    (hunread : (written ops).length - taken ops ≤ 2 ^ 32 + 3) :
    ∃ fbuf, run ops = .ok fbuf ∧
      (fbuf.size = (written ops).length - taken ops ↔ fbuf.retained < 2 ^ 31) := by
  obtain ⟨fbuf, hrun, hqueue⟩ := run_ok h
  have hlength : fbuf.unread.length = (written ops).length - taken ops := by
    rw [hqueue, List.length_drop]
  refine ⟨fbuf, hrun, ?_⟩
  rw [← hlength]
  apply size_eq_unread_iff
  have hoffset := (fragmentsFit_run hrun).offset_lt
  rw [← hlength, unread_length] at hunread
  omega

theorem size_exact_iff_fragments :
    ∃ fbuf, run [.write ⟨[1, 2], by decide⟩, .read 1, .write ⟨[3], by decide⟩] = .ok fbuf ∧
      (fbuf.size = 2 ↔ fbuf.retained < 2 ^ 31) :=
  size_exact_iff [.write ⟨[1, 2], by decide⟩, .read 1, .write ⟨[3], by decide⟩] (by decide)
    (by decide)

/-- `std::vector<char>(n)`. -/
def zeros (n : Nat) (h : n < 2 ^ 63) : CharVector := ⟨List.replicate n 0, by rwa [List.length_replicate]⟩

theorem length_zeros (n : Nat) (h : n < 2 ^ 63) : (zeros n h).1.length = n := List.length_replicate

theorem size_write_empty (buf : Bytes) : (empty.write buf).size = (int buf.length % 2 ^ 64).toNat := by
  have hdata : (empty.write buf).data.flatten.length = buf.length := by
    rw [length_flatten, retained_write]
    exact Nat.zero_add _
  rw [size, accumulate_eq, hdata]
  show ((int buf.length - 0) % 2 ^ 64).toNat = _
  rw [Int.sub_zero]

theorem size_write_two_gibibytes {buf : CharVector} (hlength : buf.1.length = 2 ^ 31) :
    InBounds [.write buf] ∧ (written [.write buf]).length - taken [.write buf] = 2 ^ 31 ∧
      ∃ fbuf, run [.write buf] = .ok fbuf ∧ fbuf.size = 2 ^ 64 - 2 ^ 31 := by
  refine ⟨?_, ?_, empty.write buf.1, rfl, ?_⟩
  · show InBounds ([] ++ [BufferOp.write buf])
    exact inBounds_concat.mpr ⟨Run.meets_nil _ _ _, Nat.zero_le _⟩
  · show ([buf.1].flatten).length - 0 = 2 ^ 31
    rw [List.flatten_singleton, hlength, Nat.sub_zero]
  · rw [size_write_empty, hlength]
    simp [int, Int.bmod]

/-- Two gibibytes in one fragment: `size` says that there are nearly `2 ^ 64` bytes. -/
theorem size_two_gibibytes :
    InBounds [.write (zeros (2 ^ 31) (by decide))] ∧
      (written [.write (zeros (2 ^ 31) (by decide))]).length -
        taken [.write (zeros (2 ^ 31) (by decide))] = 2 ^ 31 ∧
      ∃ fbuf, run [.write (zeros (2 ^ 31) (by decide))] = .ok fbuf ∧
        fbuf.size = 2 ^ 64 - 2 ^ 31 :=
  size_write_two_gibibytes (length_zeros (2 ^ 31) (by decide))

/-! ## The conversion to `std::vector<char>` -/

/-- What the conversion is to do: refuse, or give the number of unread bytes in front of these. -/
def WireForm (fbuf : FrameBuffer) (unread : Bytes) : Prop :=
  (∃ e, fbuf.toVector = .error (.thrown e)) ∨
    (unread.length < 2 ^ 32 ∧
      fbuf.toVector = .ok (networkLongToBuf (UInt32.ofNat unread.length) ++ unread))

/-- The bytes held, as an `int`, fall so far below the offset that the room asked for is more than a
vector can have. -/
def Refused (fbuf : FrameBuffer) : Prop :=
  int fbuf.retained + 4 < fbuf.offset ∧ (fbuf.offset : Int) ≤ int fbuf.retained + 4 + 2 ^ 63

theorem toVector_thrown_iff {fbuf : FrameBuffer} (h : fbuf.offset < 2 ^ 63) :
    (∃ e, fbuf.toVector = .error (.thrown e)) ↔ fbuf.Refused := by
  obtain ⟨k, -, hlo, hhi⟩ := int_spec fbuf.retained
  have hsize : fbuf.size = ((int fbuf.retained - fbuf.offset) % 2 ^ 64).toNat := by
    rw [size, accumulate_eq, length_flatten]
  have hcap : 2 ^ 63 ≤ (4 + fbuf.size) % 2 ^ 64 ↔ fbuf.Refused := by
    rw [hsize, Refused]
    omega
  rw [← hcap, toVector]
  constructor
  · rintro ⟨e, herror⟩
    by_contra hroom
    rw [if_neg hroom] at herror
    split at herror
    · cases herror
    · cases herror
  · intro hbig
    exact ⟨.lengthError, if_pos hbig⟩

/-- **When the conversion does what it is to do**: nothing of the first fragment has been read and the
bytes held fit an `int`; or the vector is refused. -/
theorem toVector_wireForm_iff (ops : List BufferOp) (h : InBounds ops) :
    ∃ fbuf, run ops = .ok fbuf ∧
      (fbuf.WireForm ((written ops).drop (taken ops)) ↔
        (fbuf.offset = 0 ∧ fbuf.retained < 2 ^ 31) ∨ fbuf.Refused) := by
  obtain ⟨fbuf, hrun, hqueue⟩ := run_ok h
  refine ⟨fbuf, hrun, ?_⟩
  rw [← hqueue, WireForm, toVector_thrown_iff (fragmentsFit_run hrun).offset_lt, or_comm]
  refine or_congr_left ?_
  rw [toVector_eq_ok_iff]
  constructor
  · rintro ⟨-, hoffset, hfits, -⟩
    exact ⟨hoffset, hfits⟩
  · rintro ⟨hoffset, hfits⟩
    have hall : fbuf.unread = fbuf.data.flatten := by rw [unread, hoffset, List.drop_zero]
    rw [hall, length_flatten]
    exact ⟨by omega, hoffset, hfits, rfl⟩

theorem toVector_wireForm_iff_written :
    ∃ fbuf, run [.write ⟨[1, 2], by decide⟩, .write ⟨[3], by decide⟩] = .ok fbuf ∧
      (fbuf.WireForm [1, 2, 3] ↔ (fbuf.offset = 0 ∧ fbuf.retained < 2 ^ 31) ∨ fbuf.Refused) :=
  toVector_wireForm_iff [.write ⟨[1, 2], by decide⟩, .write ⟨[3], by decide⟩] (by decide)

/-- After one of two bytes has been read the vector has room for one byte, and two are copied. -/
theorem toVector_partly_read :
    InBounds [.write ⟨[1, 2], by decide⟩, .read 1] ∧
      ∃ fbuf, run [.write ⟨[1, 2], by decide⟩, .read 1] = .ok fbuf ∧ fbuf.unread = [2] ∧
        fbuf.toVector = .error .undefined ∧ ¬ fbuf.WireForm [2] := by
  have hundefined : toVector ⟨[[1, 2]], 1, by decide⟩ = .error .undefined := by rfl
  refine ⟨by decide, ⟨[[1, 2]], 1, by decide⟩, ?_, rfl, hundefined, ?_⟩
  · have hread : read (empty.write [1, 2]) 1 = .ok ([1], ⟨[[1, 2]], 1, by decide⟩) := by
      simp [read, empty, write, readLoop.eq_def]
    show Fifo.run apply empty _ = _
    rw [Fifo.run_cons_ok (show apply empty _ = .ok ([], empty.write [1, 2]) from rfl),
      Fifo.run_cons_ok (show apply (empty.write [1, 2]) (.read 1) = _ from hread), Fifo.run_nil]
  · rw [WireForm, hundefined]
    simp

end FrameBuffer

end SquawkBus.Serialization
