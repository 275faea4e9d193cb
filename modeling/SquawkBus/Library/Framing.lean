import SquawkBus.Library.Run

/-!
# Length-prefixed framing

A stream of *frames*, each the length of a body in a fixed number of symbols followed by the body
itself. `LengthPrefix` is the encoding of the length together with the laws that make it
readable; everything else follows from those: the front frame of a stream is unique
(`next_eq_some_iff`), a stream of whole frames determines its bodies (`bodies_of_wire_le`),
and of a stream cut off at any place exactly the bodies `delivered` are complete.

`Reader` is the reader that takes **at most one** frame off the stream for each chunk it is given,
with the exact condition under which that is enough.
-/

/-! ## Prefixes -/

/-- An encoding of the lengths below `bound` in `width` symbols. -/
structure LengthPrefix (β : Type) where
  width : Nat
  bound : Nat
  encode : Nat → List β
  decode : List β → Nat
  width_pos : 0 < width
  length_encode : ∀ n, (encode n).length = width
  decode_encode : ∀ n, n < bound → decode (encode n) = n
  encode_decode : ∀ l, l.length = width → encode (decode l) = l
  decode_lt : ∀ l, l.length = width → decode l < bound

namespace LengthPrefix

variable {β : Type} (P : LengthPrefix β)

/-- One body on the wire. -/
def frame (body : List β) : List β := P.encode body.length ++ body

/-- Many bodies on the wire. -/
def wire (bodies : List (List β)) : List β := (bodies.map P.frame).flatten

/-- The first body of a stream and what follows it, once the stream is long enough. -/
def next (p : List β) : Option (List β × List β) :=
  if P.width ≤ p.length ∧ P.decode (p.take P.width) ≤ p.length - P.width then
    some ((p.drop P.width).take (P.decode (p.take P.width)),
      (p.drop P.width).drop (P.decode (p.take P.width)))
  else none

/-- The bodies whose frames end within the first `n` symbols of the wire. -/
def delivered : List (List β) → Nat → List (List β)
  | [], _ => []
  | b :: bs, n =>
      if (P.frame b).length ≤ n then b :: delivered bs (n - (P.frame b).length) else []

@[simp] theorem wire_nil : P.wire [] = [] := rfl

@[simp] theorem wire_cons (b : List β) (bs : List (List β)) :
    P.wire (b :: bs) = P.frame b ++ P.wire bs := by
  simp [wire]

@[simp] theorem wire_append (bs cs : List (List β)) :
    P.wire (bs ++ cs) = P.wire bs ++ P.wire cs := by
  simp [wire]

@[simp] theorem length_frame (b : List β) : (P.frame b).length = P.width + b.length := by
  simp [frame, P.length_encode]

variable {P}

/-! ## The front of a stream -/

theorem next_frame_append {b : List β} (hb : b.length < P.bound) (rest : List β) :
    P.next (P.frame b ++ rest) = some (b, rest) := by
  have hlen : (P.encode b.length).length = P.width := P.length_encode _
  have htake : (P.frame b ++ rest).take P.width = P.encode b.length := by
    rw [frame, List.append_assoc, List.take_left' hlen]
  have hdrop : (P.frame b ++ rest).drop P.width = b ++ rest := by
    rw [frame, List.append_assoc, List.drop_left' hlen]
  have hfits : P.width ≤ (P.frame b ++ rest).length ∧
      b.length ≤ (P.frame b ++ rest).length - P.width := by
    simp only [List.length_append, length_frame]
    omega
  rw [next, htake, P.decode_encode _ hb, if_pos hfits, hdrop]
  simp

/-- **The front frame is unique.** -/
theorem next_eq_some_iff {p b rest : List β} :
    P.next p = some (b, rest) ↔ b.length < P.bound ∧ p = P.frame b ++ rest := by
  constructor
  · intro h
    rw [next] at h
    split at h
    · next hfits =>
      obtain ⟨hwidth, hbody⟩ := hfits
      have htake : (p.take P.width).length = P.width := by
        rw [List.length_take]
        omega
      have hpair := Option.some.inj h
      have hb : b = (p.drop P.width).take (P.decode (p.take P.width)) :=
        (congrArg Prod.fst hpair).symm
      have hrest : rest = (p.drop P.width).drop (P.decode (p.take P.width)) :=
        (congrArg Prod.snd hpair).symm
      have hblen : b.length = P.decode (p.take P.width) := by
        rw [hb, List.length_take, List.length_drop]
        omega
      refine ⟨hblen ▸ P.decode_lt _ htake, ?_⟩
      rw [frame, hblen, P.encode_decode _ htake, List.append_assoc, hb, hrest,
        List.take_append_drop, List.take_append_drop]
    · cases h
  · rintro ⟨hb, rfl⟩
    exact next_frame_append hb rest

/-- A stream of whole frames is a prefix of another only when its bodies are. -/
theorem bodies_of_wire_le {xs ys : List (List β)} (hxs : ∀ b ∈ xs, b.length < P.bound)
    (hys : ∀ b ∈ ys, b.length < P.bound) (h : P.wire xs <+: P.wire ys) : xs <+: ys := by
  induction xs generalizing ys with
  | nil => exact List.nil_prefix
  | cons x xs ih =>
      obtain ⟨rest, hrest⟩ := h
      rw [wire_cons, List.append_assoc] at hrest
      have hnext : P.next (P.wire ys) = some (x, P.wire xs ++ rest) := by
        rw [← hrest]
        exact next_frame_append (hxs x (by simp)) _
      cases ys with
      | nil =>
          have hlen := congrArg List.length hrest
          simp only [List.length_append, length_frame, wire_nil, List.length_nil] at hlen
          have := P.width_pos
          omega
      | cons y ys =>
          rw [wire_cons, next_frame_append (hys y (by simp))] at hnext
          obtain ⟨rfl, htail⟩ := Prod.mk.inj (Option.some.inj hnext)
          refine List.cons_prefix_cons.mpr ⟨rfl, ih (fun b hb => hxs b (by simp [hb]))
            (fun b hb => hys b (by simp [hb])) ?_⟩
          exact ⟨rest, htail.symm⟩

/-! ## The bodies delivered by a stream that is cut off -/

theorem delivered_zero (bodies : List (List β)) : P.delivered bodies 0 = [] := by
  cases bodies with
  | nil => rfl
  | cons b bs =>
      have := P.width_pos
      rw [delivered, if_neg]
      rw [length_frame]
      omega

/-- What precedes the cut in whole frames has been delivered. -/
theorem prefix_delivered {xs bodies : List (List β)} (hxs : xs <+: bodies) {n : Nat}
    (hn : (P.wire xs).length ≤ n) : xs <+: P.delivered bodies n := by
  induction xs generalizing bodies n with
  | nil => exact List.nil_prefix
  | cons x xs ih =>
      obtain ⟨ys, rfl⟩ := hxs
      rw [wire_cons, List.length_append] at hn
      rw [List.cons_append, delivered, if_pos (by omega)]
      exact List.cons_prefix_cons.mpr ⟨rfl, ih (List.prefix_append xs ys) (by omega)⟩

/-- When no whole frame is left over, what precedes the cut is all that has been delivered. -/
theorem delivered_eq {xs bodies : List (List β)} {p : List β}
    (hbodies : ∀ b ∈ bodies, b.length < P.bound) (hxs : ∀ b ∈ xs, b.length < P.bound)
    (hstream : P.wire xs ++ p <+: P.wire bodies) (hp : P.next p = none) :
    P.delivered bodies (P.wire xs ++ p).length = xs := by
  induction xs generalizing bodies with
  | nil =>
      cases bodies with
      | nil => rfl
      | cons b bs =>
          rw [delivered, if_neg]
          intro hle
          -- Otherwise the frame of `b` would lie within `p`.
          have hfront : P.frame b <+: p :=
            List.prefix_of_prefix_length_le (List.prefix_append _ (P.wire bs))
              (by simpa using hstream) (by simpa using hle)
          obtain ⟨rest, rfl⟩ := hfront
          rw [next_frame_append (hbodies b (by simp))] at hp
          cases hp
  | cons x xs ih =>
      have hpre : x :: xs <+: bodies :=
        bodies_of_wire_le hxs hbodies ((List.prefix_append _ p).trans hstream)
      obtain ⟨ys, rfl⟩ := hpre
      rw [List.cons_append, wire_cons, wire_cons, List.append_assoc] at hstream
      have htail := (List.prefix_append_right_inj _).mp hstream
      rw [wire_cons, List.cons_append, delivered, List.append_assoc, List.length_append,
        if_pos (by omega), Nat.add_sub_cancel_left,
        ih (fun b hb => hbodies b (by simp [List.mem_append.mp hb]))
          (fun b hb => hxs b (by simp [hb])) htail]

/-! ## A reader that takes one frame for each chunk -/

/-- The symbols not yet turned into frames, and the bodies read so far. -/
structure Reader (β : Type) where
  pending : List β
  out : List (List β)

namespace Reader

/-- Nothing read yet. -/
def init : Reader β := ⟨[], []⟩

/-- Take in a chunk and then one frame, if a whole one is there. -/
def write (P : LengthPrefix β) (r : Reader β) (chunk : List β) : Reader β :=
  match P.next (r.pending ++ chunk) with
  | some (b, rest) => ⟨rest, r.out ++ [b]⟩
  | none => ⟨r.pending ++ chunk, r.out⟩

/-- The stream a reader has taken in: the frames it has read and what is pending. -/
def stream (P : LengthPrefix β) (r : Reader β) : List β := P.wire r.out ++ r.pending

/-- Every body read so far has a length that can be encoded. -/
def Bounded (P : LengthPrefix β) (r : Reader β) : Prop := ∀ b ∈ r.out, b.length < P.bound

theorem write_cases (r : Reader β) (chunk : List β) :
    (∃ b rest, b.length < P.bound ∧ r.pending ++ chunk = P.frame b ++ rest ∧
      r.write P chunk = ⟨rest, r.out ++ [b]⟩) ∨
    (P.next (r.pending ++ chunk) = none ∧ r.write P chunk = ⟨r.pending ++ chunk, r.out⟩) := by
  rw [write]
  cases h : P.next (r.pending ++ chunk) with
  | none => exact .inr ⟨rfl, rfl⟩
  | some front =>
      obtain ⟨hb, hp⟩ := next_eq_some_iff.mp h
      exact .inl ⟨front.1, front.2, hb, hp, rfl⟩

/-- A write adds its chunk to the stream and nothing else. -/
theorem stream_write (r : Reader β) (chunk : List β) :
    (r.write P chunk).stream P = r.stream P ++ chunk := by
  rcases write_cases (P := P) r chunk with ⟨b, rest, -, hp, hw⟩ | ⟨-, hw⟩
  · rw [hw, stream, stream, List.append_assoc, hp]
    simp
  · rw [hw, stream, stream, List.append_assoc]

theorem Bounded.write {r : Reader β} (h : r.Bounded P) (chunk : List β) :
    (r.write P chunk).Bounded P := by
  rcases write_cases (P := P) r chunk with ⟨b, rest, hb, -, hw⟩ | ⟨-, hw⟩
  · rw [hw]
    intro c hc
    rcases List.mem_append.mp hc with hc | hc
    · exact h c hc
    · rwa [List.mem_singleton.mp hc]
  · rwa [hw]

/-! ### Runs -/

/-- The reader after a list of chunks. -/
def run (P : LengthPrefix β) (chunks : List (List β)) : Reader β := chunks.foldl (write P) init

@[simp] theorem run_nil : run P [] = init := rfl

@[simp] theorem run_snoc (chunks : List (List β)) (chunk : List β) :
    run P (chunks ++ [chunk]) = (run P chunks).write P chunk := by
  simp [run]

theorem stream_run (chunks : List (List β)) : (run P chunks).stream P = chunks.flatten := by
  induction chunks using List.reverseRecOn with
  | nil => rfl
  | append_singleton chunks chunk ih => simp [stream_write, ih]

theorem bounded_run (chunks : List (List β)) : (run P chunks).Bounded P := by
  induction chunks using List.reverseRecOn with
  | nil => intro b hb; simp [init] at hb
  | append_singleton chunks chunk ih => rw [run_snoc]; exact ih.write chunk

/-- **Framing is sound.** Whatever the chunks, the bodies read are a prefix of the bodies sent. -/
theorem out_prefix {bodies chunks : List (List β)} (hbodies : ∀ b ∈ bodies, b.length < P.bound)
    (hchunks : chunks.flatten <+: P.wire bodies) : (run P chunks).out <+: bodies := by
  have hstream := stream_run (P := P) chunks
  refine bodies_of_wire_le (bounded_run chunks) hbodies (List.IsPrefix.trans ?_ hchunks)
  exact ⟨(run P chunks).pending, hstream⟩

/-- Until the end of a frame has arrived, all of it is pending. -/
theorem run_of_lt {body : List β} {chunks : List (List β)} (hbody : body.length < P.bound)
    (hchunks : chunks.flatten <+: P.frame body) (hlt : chunks.flatten.length < (P.frame body).length) :
    run P chunks = ⟨chunks.flatten, []⟩ := by
  have hbodies : ∀ b ∈ [body], b.length < P.bound := by simpa using hbody
  have hout : (run P chunks).out <+: [] ++ [body] := out_prefix hbodies (by simpa using hchunks)
  have hstream := stream_run (P := P) chunks
  have hnil : (run P chunks).out = [] := by
    rcases List.prefix_concat_iff.mp hout with heq | hnil
    · rw [stream, heq, List.nil_append, wire_cons, wire_nil, List.append_nil] at hstream
      have hlength := congrArg List.length hstream
      rw [List.length_append] at hlength
      omega
    · exact List.prefix_nil.mp hnil
  rw [stream, hnil, wire_nil, List.nil_append] at hstream
  rw [← hstream, ← hnil]

/-- **A frame is read when its last chunk arrives**, and nothing is left of it. -/
theorem run_of_frame {body : List β} {chunks : List (List β)} {chunk : List β}
    (hbody : body.length < P.bound) (hchunks : chunks.flatten ++ chunk = P.frame body)
    (hne : chunk ≠ []) : run P (chunks ++ [chunk]) = ⟨[], [body]⟩ := by
  have hpos := List.length_pos_iff.mpr hne
  have hlength := congrArg List.length hchunks
  rw [List.length_append] at hlength
  rw [run_snoc, run_of_lt hbody ⟨chunk, hchunks⟩ (by omega), Reader.write, hchunks,
    ← List.append_nil (P.frame body), next_frame_append hbody]
  rfl

/-! ### When no frame is left behind -/

/-- The chunk completes at most one more body. -/
def CompletesOne (P : LengthPrefix β) (bodies pre : List (List β)) (chunk : List β) : Prop :=
  (P.delivered bodies (pre ++ [chunk]).flatten.length).length ≤
    (P.delivered bodies pre.flatten.length).length + 1

instance decidableCompletesOne (bodies pre : List (List β)) (chunk : List β) :
    Decidable (CompletesOne P bodies pre chunk) :=
  inferInstanceAs (Decidable (_ ≤ _))

/-- One write keeps up when the reader had kept up so far and the chunk completes at most one
body. -/
theorem out_write_eq_delivered {bodies pre : List (List β)} {chunk : List β}
    (hbodies : ∀ b ∈ bodies, b.length < P.bound)
    (hchunks : (pre ++ [chunk]).flatten <+: P.wire bodies)
    (hpre : (run P pre).out = P.delivered bodies pre.flatten.length)
    (hone : CompletesOne P bodies pre chunk) :
    (run P (pre ++ [chunk])).out = P.delivered bodies (pre ++ [chunk]).flatten.length := by
  have hstream := stream_run (P := P) (pre ++ [chunk])
  have hbound := bounded_run (P := P) (pre ++ [chunk])
  have hout := out_prefix hbodies hchunks
  rw [CompletesOne, ← hpre] at hone
  rw [← hstream] at hchunks hone ⊢
  -- What is pending after the write holds no whole frame.
  refine (delivered_eq hbodies hbound hchunks ?_).symm
  rcases write_cases (P := P) (run P pre) chunk with ⟨b, rest, -, -, hw⟩ | ⟨hnone, hw⟩
  · rw [run_snoc] at hchunks hone ⊢
    rw [hw] at hchunks hone ⊢
    cases hnext : P.next rest with
    | none => rfl
    | some front =>
        -- A second frame would be a second body completed by the chunk.
        exfalso
        obtain ⟨hc, hrest⟩ := next_eq_some_iff.mp hnext
        have htwo : P.wire ((run P pre).out ++ [b] ++ [front.1]) <+: P.wire bodies := by
          refine List.IsPrefix.trans ⟨front.2, ?_⟩ hchunks
          simp [stream, hrest]
        have hbounds : ∀ c ∈ (run P pre).out ++ [b] ++ [front.1], c.length < P.bound := by
          intro c hmem
          rw [run_snoc, hw] at hbound
          rcases List.mem_append.mp hmem with hmem | hmem
          · exact hbound c hmem
          · rwa [List.mem_singleton.mp hmem]
        have hdel := (prefix_delivered (P := P) (bodies_of_wire_le hbounds hbodies htwo)
          (n := ((⟨rest, (run P pre).out ++ [b]⟩ : Reader β).stream P).length)
          (by simp [stream, hrest])).length_le
        simp only [List.length_append, List.length_singleton] at hdel hone
        omega
  · rw [run_snoc, hw]
    exact hnone

/-- **When one frame for each chunk is enough.** After every chunk all the bodies whose last
symbol has arrived have been read, exactly when no chunk completes more than one body. -/
theorem out_eq_delivered_iff {bodies chunks : List (List β)}
    (hbodies : ∀ b ∈ bodies, b.length < P.bound)
    (hchunks : chunks.flatten <+: P.wire bodies) :
    (∀ pre, pre <+: chunks → (run P pre).out = P.delivered bodies pre.flatten.length) ↔
      ∀ pre chunk, pre ++ [chunk] <+: chunks → CompletesOne P bodies pre chunk := by
  have hsub : ∀ pre, pre <+: chunks → pre.flatten <+: P.wire bodies := by
    rintro pre ⟨rest, rfl⟩
    exact List.IsPrefix.trans ⟨rest.flatten, by simp⟩ hchunks
  constructor
  · intro h pre chunk hpre
    have hle : pre <+: chunks := (List.prefix_append pre [chunk]).trans hpre
    rw [CompletesOne, ← h pre hle, ← h _ hpre, run_snoc]
    rcases write_cases (P := P) (run P pre) chunk with ⟨b, rest, -, -, hw⟩ | ⟨-, hw⟩
    · rw [hw]
      simp
    · rw [hw]
      simp
  · intro h
    refine Run.prefix_induction chunks ?_ ?_
    · simp [init, delivered_zero]
    · intro pre chunk hpre ih
      exact out_write_eq_delivered hbodies (hsub _ hpre) ih (h pre chunk hpre)

end Reader

end LengthPrefix
