import SquawkBus.Serialization.FrameBufferIo

/-!
# `FrameReader`

The reader that turns chunks off a socket back into frames. `write` takes in a chunk and then
at most one frame; `hasFrame` and `read` hand the finished frames out.

The reader refines `LengthPrefix.Reader`: what it has yet to turn into frames, `pending`, is the
length already parsed (if any) and the unread bytes, and a write does to it what one step of the
abstract reader does.
-/

namespace SquawkBus.Serialization

open FrameStream

/-! ## The reader -/

structure FrameReader where
  len : Option Nat
  fbuf : FrameBuffer
  frames : List Bytes
  deriving DecidableEq

namespace FrameReader

/-- The default-constructed reader. -/
def empty : FrameReader := ⟨none, FrameBuffer.empty, []⟩

/-- `if (!len_ && fbuf_.size() >= 4) fbuf_ >> len_`. -/
def takeLength (reader : FrameReader) : Except Fault FrameReader :=
  if reader.len.isNone ∧ 4 ≤ reader.fbuf.size then do
    let (len, fbuf) ← getSize reader.fbuf
    return { reader with len := some len, fbuf }
  else return reader

/-- `if (len_ && fbuf_.size() >= *len_)`: the frame is queued and the length forgotten. -/
def takeFrame (reader : FrameReader) : Except Fault FrameReader :=
  match reader.len with
  | none => return reader
  | some len =>
      if len ≤ reader.fbuf.size then do
        let (frame, fbuf) ← reader.fbuf.read len
        return { len := none, fbuf, frames := reader.frames ++ [frame] }
      else return reader

def hasFrame (reader : FrameReader) : Bool := !reader.frames.isEmpty

def write (reader : FrameReader) (buf : Bytes) : Except Fault (Bool × FrameReader) := do
  let reader ← takeLength { reader with fbuf := reader.fbuf.write buf }
  let reader ← takeFrame reader
  return (!reader.frames.isEmpty, reader)

def read (reader : FrameReader) : Except Fault (FrameBuffer × FrameReader) :=
  match reader.frames with
  | [] => .error .undefined
  | frame :: frames => .ok (FrameBuffer.empty.write frame, { reader with frames })

/-- The frames that are made of chunks when each frame is read as soon as it is there. -/
def framesOf (reader : FrameReader) : List Bytes → List Bytes
  | [] => []
  | buf :: bufs =>
      match reader.write buf with
      | .error _ => []
      | .ok (_, reader) => reader.frames ++ { reader with frames := [] }.framesOf bufs

end FrameReader

/-! ## The length prefix -/

/-- Four bytes in network order, for lengths below `2 ^ 32`. -/
def networkLong : LengthPrefix UInt8 where
  width := 4
  bound := 2 ^ 32
  encode n := networkLongToBuf (UInt32.ofNat n)
  decode buf := (bufToNetworkLong buf).toNat
  width_pos := by decide
  length_encode _ := rfl
  decode_encode n h := by
    rw [bufToNetworkLong_networkLongToBuf]
    exact UInt32.toNat_ofNat_of_lt' h
  encode_decode buf h := by
    rw [UInt32.ofNat_toNat]
    exact networkLongToBuf_bufToNetworkLong h
  decode_lt buf _ := (bufToNetworkLong buf).toNat_lt

/-- The conversion puts exactly the frame of the buffer's bytes on the wire. -/
theorem frame_of_toVector {fbuf : FrameBuffer} {buf : Bytes} (h : fbuf.toVector = .ok buf) :
    buf = networkLong.frame fbuf.data.flatten ∧ fbuf.data.flatten.length < networkLong.bound := by
  obtain ⟨-, hlt, rfl⟩ := FrameBuffer.toVector_eq_ok_iff.mp h
  rw [FrameBuffer.retained] at hlt
  refine ⟨rfl, hlt.trans ?_⟩
  decide

theorem wire_of_toVector {bodies : List FrameBuffer} {wires : List Bytes}
    (h : bodies.mapM FrameBuffer.toVector = .ok wires) :
    wires.flatten = networkLong.wire (bodies.map fun b => b.data.flatten) ∧
      ∀ b ∈ bodies.map fun b => b.data.flatten, b.length < networkLong.bound := by
  induction bodies generalizing wires with
  | nil =>
      obtain rfl : [] = wires := Except.ok.inj h
      simp
  | cons b bs ih =>
      rw [List.mapM_cons] at h
      cases hb : b.toVector with
      | error e => rw [hb] at h; cases h
      | ok buf =>
          cases hbs : bs.mapM FrameBuffer.toVector with
          | error e => rw [hb, hbs] at h; cases h
          | ok bufs =>
              rw [hb, hbs] at h
              obtain rfl : buf :: bufs = wires := Except.ok.inj h
              obtain ⟨hframe, hlt⟩ := frame_of_toVector hb
              obtain ⟨hwire, hlts⟩ := ih hbs
              refine ⟨by simp [hframe, hwire], ?_⟩
              intro c hc
              rcases List.mem_cons.mp hc with rfl | hc
              · exact hlt
              · exact hlts c hc

namespace FrameReader

/-! ## What a write does -/

/-- The bytes of the stream not yet turned into frames. -/
def pending (reader : FrameReader) : Bytes :=
  (reader.len.elim [] fun len => networkLongToBuf (UInt32.ofNat len)) ++ reader.fbuf.unread

/-- A parsed length is one that four bytes can hold. -/
def LenFits (reader : FrameReader) : Prop := ∀ len ∈ reader.len, len < 2 ^ 32

theorem getSize_of_four {fbuf : FrameBuffer} (h : 4 ≤ fbuf.unread.length) :
    ∃ len fbuf', getSize fbuf = .ok (len, fbuf') ∧ len < 2 ^ 32 ∧
      fbuf.unread = networkLongToBuf (UInt32.ofNat len) ++ fbuf'.unread ∧
      fbuf'.retained ≤ fbuf.retained := by
  obtain ⟨fbuf', hread, hrest, hret⟩ := FrameBuffer.read_spec h
  have htake : (fbuf.unread.take 4).length = 4 := by
    rw [List.length_take]
    omega
  refine ⟨(bufToNetworkLong (fbuf.unread.take 4)).toNat, fbuf', ?_, UInt32.toNat_lt _, ?_, hret⟩
  · show ((fbuf.read 4 >>= fun r => Except.ok (bufToNetworkLong r.1, r.2)) >>=
      fun r => Except.ok (r.1.toNat, r.2)) = _
    rw [hread]
    rfl
  · rw [UInt32.ofNat_toNat, networkLongToBuf_bufToNetworkLong htake, hrest,
      List.take_append_drop]

/-- Taking the length moves it from the unread bytes to `len`; without one, fewer than four bytes
are unread. -/
theorem takeLength_spec (reader : FrameReader) (hret : reader.fbuf.retained < 2 ^ 31)
    (hlen : reader.LenFits) :
    ∃ reader', reader.takeLength = .ok reader' ∧ reader'.pending = reader.pending ∧
      reader'.frames = reader.frames ∧ reader'.LenFits ∧ reader'.fbuf.retained < 2 ^ 31 ∧
      (reader'.len = none → reader'.fbuf.unread.length < 4) := by
  have hsize := FrameBuffer.size_eq hret
  rw [takeLength]
  split
  · next hfour =>
    rw [hsize] at hfour
    have hnone : reader.len = none := Option.isNone_iff_eq_none.mp hfour.1
    obtain ⟨len, fbuf', hget, hlt, hunread, hret'⟩ := getSize_of_four hfour.2
    rw [hget]
    refine ⟨_, rfl, ?_, rfl, ?_, Nat.lt_of_le_of_lt hret' hret, ?_⟩
    · simp [pending, hnone, hunread]
    · intro l hl
      obtain rfl : len = l := Option.some.inj hl
      exact hlt
    · intro h
      cases h
  · next hfour =>
    refine ⟨reader, rfl, rfl, rfl, hlen, hret, fun hnone => ?_⟩
    by_contra hge
    exact hfour ⟨by simp [hnone], by omega⟩

/-- Taking a frame is one step on the pending bytes. -/
theorem takeFrame_spec {reader : FrameReader} (hret : reader.fbuf.retained < 2 ^ 31)
    (hlen : reader.LenFits) (hshort : reader.len = none → reader.fbuf.unread.length < 4) :
    ∃ reader', reader.takeFrame = .ok reader' ∧ reader'.LenFits ∧
      ((∃ b rest, networkLong.next reader.pending = some (b, rest) ∧
        reader'.pending = rest ∧ reader'.frames = reader.frames ++ [b]) ∨
      (networkLong.next reader.pending = none ∧ reader' = reader)) := by
  have hsize := FrameBuffer.size_eq hret
  rw [takeFrame]
  cases hl : reader.len with
  | none =>
      refine ⟨reader, rfl, hlen, .inr ⟨?_, rfl⟩⟩
      have hlt := hshort hl
      rw [LengthPrefix.next, if_neg]
      rintro ⟨hwidth, -⟩
      have : networkLong.width = 4 := rfl
      simp only [pending, hl, Option.elim_none, List.nil_append] at hwidth
      omega
  | some len =>
      have hlt := hlen len hl
      have hpending : reader.pending = networkLongToBuf (UInt32.ofNat len) ++ reader.fbuf.unread := by
        simp [pending, hl]
      simp only [hsize]
      split
      · next hle =>
        obtain ⟨fbuf', hread, hrest, -⟩ := FrameBuffer.read_spec hle
        rw [hread]
        refine ⟨⟨none, fbuf', reader.frames ++ [reader.fbuf.unread.take len]⟩, rfl, ?_,
          .inl ⟨reader.fbuf.unread.take len, fbuf'.unread, ?_, rfl, rfl⟩⟩
        · intro l hl
          cases hl
        have hlen' : (reader.fbuf.unread.take len).length = len := by
          rw [List.length_take]
          omega
        have hframe : reader.pending =
            networkLong.frame (reader.fbuf.unread.take len) ++ fbuf'.unread := by
          rw [LengthPrefix.frame, hlen', hpending, hrest, List.append_assoc,
            List.take_append_drop]
          rfl
        rw [hframe]
        exact LengthPrefix.next_frame_append (by rw [hlen']; exact hlt) _
      · next hgt =>
        refine ⟨reader, rfl, hlen, .inr ⟨?_, rfl⟩⟩
        -- A frame in the pending bytes would be `len` bytes long.
        cases hnext : networkLong.next reader.pending with
        | none => rfl
        | some front =>
            exfalso
            obtain ⟨hb, heq⟩ := LengthPrefix.next_eq_some_iff.mp hnext
            rw [hpending, LengthPrefix.frame, List.append_assoc] at heq
            obtain ⟨hhead, htail⟩ := List.append_inj heq rfl
            have hval : len = front.1.length := by
              have hdec := congrArg networkLong.decode hhead
              rw [networkLong.decode_encode _ hb] at hdec
              rw [← hdec]
              exact (networkLong.decode_encode len hlt).symm
            rw [htail, List.length_append] at hgt
            omega

/-! ## Refinement of the abstract reader -/

/-- The state of the abstract reader, when `out` has been read out before. -/
def toReader (reader : FrameReader) (out : List Bytes) : LengthPrefix.Reader UInt8 :=
  ⟨reader.pending, out ++ reader.frames⟩

/-- **A write refines one step of the abstract reader**, and stays within the buffered bytes. -/
theorem write_spec {reader : FrameReader} {chunk : Bytes}
    (hret : reader.fbuf.retained + chunk.length < 2 ^ 31) (hlen : reader.LenFits) :
    ∃ reader', reader.write chunk = .ok (!reader'.frames.isEmpty, reader') ∧ reader'.LenFits ∧
      ∀ out, reader'.toReader out = (reader.toReader out).write networkLong chunk := by
  have hret' : (reader.fbuf.write chunk).retained < 2 ^ 31 := by
    rwa [FrameBuffer.retained_write]
  obtain ⟨r₁, hrun₁, hpend₁, hframes₁, hlen₁, hret₁, hshort₁⟩ :=
    takeLength_spec { reader with fbuf := reader.fbuf.write chunk } hret' hlen
  have hpend : r₁.pending = reader.pending ++ chunk := by
    rw [hpend₁]
    simp [pending]
  obtain ⟨r₂, hrun₂, hlen₂, hcase⟩ := takeFrame_spec hret₁ hlen₁ hshort₁
  refine ⟨r₂, ?_, hlen₂, fun out => ?_⟩
  · rw [write, hrun₁]
    show (takeFrame r₁ >>= fun r => _) = _
    rw [hrun₂]
    rfl
  · have habs : (reader.toReader out).pending ++ chunk = r₁.pending := hpend.symm
    rw [LengthPrefix.Reader.write, habs]
    rcases hcase with ⟨b, rest, hnext, hpend₂, hframes₂⟩ | ⟨hnext, rfl⟩
    · rw [hnext]
      simp [toReader, hpend₂, hframes₂, hframes₁]
    · rw [hnext]
      simp [toReader, hframes₁]

end FrameReader

end SquawkBus.Serialization
