import SquawkBus.Serialization.FrameReader

/-!
# A `FrameReader` in use

Runs of `write` and `read` on one reader, in any order: the frames read out never differ from the
bodies sent (`frames_read_prefix`), but they keep up with the bytes received only when no chunk
completes two bodies (`frames_available_iff`), because a write takes one frame off the buffer.
-/

namespace SquawkBus.Serialization

/-! ## Sessions -/

/-- A call on the reader. `read` stands for the guarded call: it is made when `hasFrame` is true. -/
inductive ReaderOp where
  | write (chunk : Bytes)
  | read

/-- The reader and the frames it has handed out. -/
structure Session where
  reader : FrameReader
  out : List Bytes

namespace Session

def init : Session := ⟨FrameReader.empty, []⟩

def apply (session : Session) : ReaderOp → Except Fault Session
  | .write chunk => do
      let (_, reader) ← session.reader.write chunk
      return { session with reader }
  | .read =>
      if session.reader.hasFrame then do
        let (fbuf, reader) ← session.reader.read
        return ⟨reader, session.out ++ [fbuf.unread]⟩
      else return session

/-- One call, unless a fault came before. -/
def step (session : Except Fault Session) (op : ReaderOp) : Except Fault Session :=
  session >>= fun s => s.apply op

/-- A whole run of calls on a new reader. -/
def run (ops : List ReaderOp) : Except Fault Session := ops.foldl step (.ok init)

/-- The chunk a call passes in. -/
def chunk? : ReaderOp → Option Bytes
  | .write chunk => some chunk
  | .read => none

/-- The chunks written in a run. -/
def chunks (ops : List ReaderOp) : List Bytes := ops.filterMap chunk?

/-- The buffer retains fewer than `2 ^ 31` bytes once the chunk is in. -/
def Fits : Except Fault Session → ReaderOp → Prop
  | .ok session, .write chunk => session.reader.fbuf.retained + chunk.length < 2 ^ 31
  | _, _ => True

instance decidableFits : ∀ session op, Decidable (Fits session op)
  | .ok session, .write chunk =>
      inferInstanceAs (Decidable (session.reader.fbuf.retained + chunk.length < 2 ^ 31))
  | .ok _, .read => isTrue trivial
  | .error _, .write _ => isTrue trivial
  | .error _, .read => isTrue trivial

/-! ## The session follows the abstract reader -/

/-- The abstract reader takes in what is written; a read does not concern it. -/
def specStep (r : LengthPrefix.Reader UInt8) : ReaderOp → LengthPrefix.Reader UInt8
  | .write chunk => r.write networkLong chunk
  | .read => r

/-- The session has not faulted, and it stands where the abstract reader does. -/
def Follows (session : Except Fault Session) (r : LengthPrefix.Reader UInt8) : Prop :=
  ∃ s, session = .ok s ∧ s.reader.LenFits ∧ s.reader.toReader s.out = r

theorem apply_read_of_nil {s : Session} (h : s.reader.frames = []) : s.apply .read = .ok s := by
  have hno : s.reader.hasFrame = false := by simp [FrameReader.hasFrame, h]
  rw [apply, hno]
  rfl

theorem apply_read_of_cons {s : Session} {frame : Bytes} {frames : List Bytes}
    (h : s.reader.frames = frame :: frames) :
    s.apply .read = .ok ⟨{ s.reader with frames }, s.out ++ [frame]⟩ := by
  have hyes : s.reader.hasFrame = true := by simp [FrameReader.hasFrame, h]
  have hunread : (FrameBuffer.empty.write frame).unread = frame := by simp
  rw [apply, hyes, FrameReader.read, h]
  show Except.ok (⟨_, s.out ++ [(FrameBuffer.empty.write frame).unread]⟩ : Session) = _
  rw [hunread]

theorem follows_step {session : Except Fault Session} {r : LengthPrefix.Reader UInt8}
    (h : Follows session r) {op : ReaderOp} (hfits : Fits session op) :
    Follows (step session op) (specStep r op) := by
  obtain ⟨s, rfl, hlen, rfl⟩ := h
  cases op with
  | write chunk =>
      obtain ⟨reader', hrun, hlen', href⟩ := FrameReader.write_spec hfits hlen
      refine ⟨{ s with reader := reader' }, ?_, hlen', href s.out⟩
      show (s.reader.write chunk >>= fun r => _) = _
      rw [hrun]
      rfl
  | read =>
      cases hframes : s.reader.frames with
      | nil => exact ⟨s, apply_read_of_nil hframes, hlen, rfl⟩
      | cons frame frames =>
          refine ⟨⟨{ s.reader with frames }, s.out ++ [frame]⟩, apply_read_of_cons hframes, hlen, ?_⟩
          simp [FrameReader.toReader, FrameReader.pending, specStep, hframes]

theorem foldl_specStep (ops : List ReaderOp) (r : LengthPrefix.Reader UInt8) :
    ops.foldl specStep r = (chunks ops).foldl (LengthPrefix.Reader.write networkLong) r := by
  induction ops generalizing r with
  | nil => rfl
  | cons op ops ih =>
      cases op with
      | write chunk => exact ih _
      | read => exact ih _

/-- **Along every run the session follows the abstract reader**, without a fault. -/
theorem follows_run {ops : List ReaderOp} (hfits : Run.Meets step Fits (.ok init) ops) :
    ∀ pre, pre <+: ops → Follows (run pre) (LengthPrefix.Reader.run networkLong (chunks pre)) := by
  intro pre hpre
  have hinit : Follows (.ok init) LengthPrefix.Reader.init :=
    ⟨init, rfl, fun _ h => by simp [init, FrameReader.empty] at h, rfl⟩
  have h := Run.simulation hinit (fun _ _ _ hrel hok => follows_step hrel hok) hfits pre hpre
  rwa [foldl_specStep] at h

/-! ## Soundness -/

/-- **Framing never corrupts, reorders, merges, drops or duplicates.** Whatever the chunks and
whenever the frames are read, no call reads outside the buffer and the frames read out are a
prefix of the bodies sent. -/
theorem frames_read_prefix {bodies : List FrameBuffer} {wires : List Bytes} {ops : List ReaderOp}
    (hwires : bodies.mapM FrameBuffer.toVector = .ok wires)
    (hchunks : (chunks ops).flatten <+: wires.flatten)
    (hfits : Run.Meets step Fits (.ok init) ops) :
    ∃ s, run ops = .ok s ∧ s.out <+: bodies.map fun b => b.data.flatten := by
  obtain ⟨hwire, hbodies⟩ := wire_of_toVector hwires
  obtain ⟨s, hrun, -, href⟩ := follows_run hfits ops (List.prefix_refl ops)
  rw [hwire] at hchunks
  have hout := LengthPrefix.Reader.out_prefix hbodies hchunks
  rw [← href] at hout
  exact ⟨s, hrun, (List.prefix_append s.out s.reader.frames).trans hout⟩

/-- Two bodies, one of them empty, in chunks that cut the length prefixes and the body, with an
empty chunk and reads in between. -/
theorem frames_read_prefix_of_cut_stream :
    ∃ s, run [.write [0, 0], .read, .write [0, 2, 65], .write [], .write [66, 0, 0, 0], .read,
        .write [0], .read] = .ok s ∧ s.out <+: [[65, 66], []] :=
  have hwires : [(FrameBuffer.empty.write [65]).write [66], FrameBuffer.empty.write []].mapM
      FrameBuffer.toVector = .ok [[0, 0, 0, 2, 65, 66], [0, 0, 0, 0]] := by rfl
  frames_read_prefix hwires (by decide) (by decide +kernel)

/-! ## Availability -/

/-- Every body whose bytes have all been received has been read out or waits to be. -/
def Available (bodies : List Bytes) (pre : List ReaderOp) : Prop :=
  ∃ s, run pre = .ok s ∧
    s.out ++ s.reader.frames = networkLong.delivered bodies (chunks pre).flatten.length

/-- Cutting a run before a write cuts its chunks before that chunk, and every place to cut the
chunks comes from one. -/
theorem snoc_prefix_chunks_iff {ops : List ReaderOp} {cs : List Bytes} {c : Bytes} :
    cs ++ [c] <+: chunks ops ↔ ∃ pre, pre ++ [.write c] <+: ops ∧ chunks pre = cs := by
  constructor
  · intro h
    obtain ⟨l, hl, hcs⟩ := List.prefix_filterMap_iff.mp h
    obtain ⟨l₁, l₂, rfl, h₁, h₂⟩ := List.filterMap_eq_append_iff.mp hcs.symm
    obtain ⟨m₁, op, m₂, rfl, hnone, hop, -⟩ := List.filterMap_eq_cons_iff.mp h₂
    have hwrite : op = .write c := by
      cases op with
      | write chunk => rw [Option.some.inj hop]
      | read => cases hop
    subst hwrite
    refine ⟨l₁ ++ m₁, List.IsPrefix.trans ⟨m₂, by simp⟩ hl, ?_⟩
    rw [chunks, List.filterMap_append, h₁, List.filterMap_eq_nil_iff.mpr hnone, List.append_nil]
  · rintro ⟨pre, ⟨rest, rfl⟩, rfl⟩
    exact ⟨chunks rest, by simp [chunks, chunk?]⟩

/-- **When no frame is left waiting.** After every call all the frames whose bytes have arrived
are available, exactly when no chunk contains the end of more than one frame. -/
theorem frames_available_iff {bodies : List Bytes} {ops : List ReaderOp}
    (hbodies : ∀ b ∈ bodies, b.length < 2 ^ 32)
    (hchunks : (chunks ops).flatten <+: networkLong.wire bodies)
    (hfits : Run.Meets step Fits (.ok init) ops) :
    (∀ pre, pre <+: ops → Available bodies pre) ↔
      ∀ pre chunk, pre ++ [.write chunk] <+: ops →
        LengthPrefix.Reader.CompletesOne networkLong bodies (chunks pre) chunk := by
  have hreader := LengthPrefix.Reader.out_eq_delivered_iff hbodies hchunks
  have havail : ∀ pre, pre <+: ops → (Available bodies pre ↔
      (LengthPrefix.Reader.run networkLong (chunks pre)).out =
        networkLong.delivered bodies (chunks pre).flatten.length) := by
    intro pre hpre
    obtain ⟨s, hrun, -, href⟩ := follows_run hfits pre hpre
    rw [← href]
    refine ⟨?_, fun h => ⟨s, hrun, h⟩⟩
    rintro ⟨s', hrun', h⟩
    rw [hrun] at hrun'
    obtain rfl := Except.ok.inj hrun'
    exact h
  constructor
  · intro h pre chunk hpre
    refine hreader.mp (fun cs hcs => ?_) _ _ (snoc_prefix_chunks_iff.mpr ⟨pre, hpre, rfl⟩)
    obtain ⟨l, hl, rfl⟩ := List.prefix_filterMap_iff.mp hcs
    exact (havail l hl).mp (h l hl)
  · intro h pre hpre
    refine (havail pre hpre).mpr (hreader.mpr (fun cs c hcs => ?_) _ (hpre.filterMap chunk?))
    obtain ⟨l, hl, rfl⟩ := snoc_prefix_chunks_iff.mp hcs
    exact h l c hl

/-- One frame for each chunk, the second frame beginning in the first chunk: nothing waits. -/
theorem frames_available_of_separate_ends :
    Run.Meets step Fits (.ok init) [.write [0, 0, 0, 1, 65, 0, 0], .read, .write [0, 1, 66]] ∧
    ∀ pre, pre <+: [.write [0, 0, 0, 1, 65, 0, 0], .read, .write [0, 1, 66]] →
      Available [[65], [66]] pre := by
  refine ⟨by decide +kernel,
    (frames_available_iff (by decide) (by decide) (by decide +kernel)).mpr ?_⟩
  intro pre chunk h
  match pre, h with
  | [], h =>
      obtain ⟨rest, hrest⟩ := h
      obtain rfl := ReaderOp.write.inj (List.cons.inj hrest).1
      decide
  | [_], ⟨rest, hrest⟩ => cases (List.cons.inj (List.cons.inj hrest).2).1
  | [op, op'], ⟨rest, hrest⟩ =>
      obtain ⟨rfl, htail⟩ := List.cons.inj hrest
      obtain ⟨rfl, hlast⟩ := List.cons.inj htail
      obtain rfl := ReaderOp.write.inj (List.cons.inj hlast).1
      decide
  | _ :: _ :: _ :: _, ⟨rest, hrest⟩ =>
      have hlen := congrArg List.length hrest
      simp at hlen

/-- Two whole frames in one chunk: the second is left waiting. -/
theorem second_frame_left_waiting :
    (∀ b ∈ [[65], [66]], b.length < 2 ^ 32) ∧
    (chunks [.write [0, 0, 0, 1, 65, 0, 0, 0, 1, 66]]).flatten <+:
      networkLong.wire [[65], [66]] ∧
    Run.Meets step Fits (.ok init) [.write [0, 0, 0, 1, 65, 0, 0, 0, 1, 66]] ∧
    ¬ ∀ pre, pre <+: [.write [0, 0, 0, 1, 65, 0, 0, 0, 1, 66]] → Available [[65], [66]] pre := by
  refine ⟨by decide, by decide, by decide +kernel, fun h => ?_⟩
  obtain ⟨s, hrun, hout⟩ := h _ (List.prefix_refl _)
  have hone : (run [.write [0, 0, 0, 1, 65, 0, 0, 0, 1, 66]]).map
      (fun s => s.out ++ s.reader.frames) = .ok [[65]] := by decide +kernel
  rw [hrun] at hone
  have hval : s.out ++ s.reader.frames = [[65]] := Except.ok.inj hone
  rw [hout] at hval
  exact absurd hval (by decide)

end Session

end SquawkBus.Serialization
