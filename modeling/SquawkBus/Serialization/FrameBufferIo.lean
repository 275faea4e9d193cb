import SquawkBus.Serialization.FrameBuffer
import SquawkBus.Library.Framing

/-!
# The stream operators of `FrameBuffer`

`<<` and `>>` for each type the protocol sends. A chain of operators is a sequence in the monad
`FrameStream`, whose state is the buffer and whose failures are the faults of `read` and the
`std::runtime_error` of a size that does not fit 32 bits.

`Writes` and `Reads` say what an operator appends to a buffer and what it takes off one; both
compose along `do` sequences, so a message is handled field by field.
-/

namespace SquawkBus.Serialization

/-- A sequence of stream operators on one buffer. -/
abbrev FrameStream (α : Type) := StateT FrameBuffer (Except Fault) α

namespace FrameStream

def writeBytes (buf : Bytes) : FrameStream Unit := fun fbuf => .ok ((), fbuf.write buf)

def readBytes (len : Nat) : FrameStream Bytes := fun fbuf => fbuf.read len

/-! ## `char` and `bool` -/

def putChar (c : UInt8) : FrameStream Unit := writeBytes [c]

def getChar : FrameStream UInt8 := do
  let buf ← readBytes 1
  return buf.headD 0

def putBool (b : Bool) : FrameStream Unit := putChar (if b then 1 else 0)

def getBool : FrameStream Bool := do
  let c ← getChar
  return c == 1

/-! ## `uint32_t`, `size_t` and `int32_t` -/

def putUInt32 (i : UInt32) : FrameStream Unit := writeBytes (networkLongToBuf i)

def getUInt32 : FrameStream UInt32 := do
  let buf ← readBytes 4
  return bufToNetworkLong buf

def putSize (l : Nat) : FrameStream Unit :=
  if 2 ^ 32 - 1 < l then
    throw (.thrown (.runtimeError "size is bigger than max uint32"))
  else putUInt32 (UInt32.ofNat l)

def getSize : FrameStream Nat := do
  let u ← getUInt32
  return u.toNat

def putInt32 (i : Int32) : FrameStream Unit := putUInt32 i.toUInt32

def getInt32 : FrameStream Int32 := do
  let u ← getUInt32
  return u.toInt32

/-! ## `string` and `vector` -/

def putString (s : Bytes) : FrameStream Unit := do
  putSize s.length
  writeBytes s

def getString : FrameStream Bytes := do
  let l ← getSize
  readBytes l

variable {α β : Type}

def putEach (put : α → FrameStream Unit) : List α → FrameStream Unit
  | [] => return ()
  | c :: v => do
      put c
      putEach put v

def putVector (put : α → FrameStream Unit) (v : List α) : FrameStream Unit := do
  putSize v.length
  putEach put v

def getEach (get : FrameStream α) : Nat → FrameStream (List α)
  | 0 => return []
  | l + 1 => do
      let c ← get
      let v ← getEach get l
      return c :: v

def getVector (get : FrameStream α) : FrameStream (List α) := do
  let l ← getSize
  getEach get l

/-! ## What an operator appends -/

/-- `put` appends `bytes` to any buffer. -/
def Writes (put : FrameStream Unit) (bytes : Bytes) : Prop :=
  ∀ fbuf, ∃ fbuf', put fbuf = .ok ((), fbuf') ∧ fbuf'.offset = fbuf.offset ∧
    fbuf'.data.flatten = fbuf.data.flatten ++ bytes

theorem writes_pure : Writes (pure ()) [] := fun fbuf => ⟨fbuf, rfl, rfl, by simp⟩

theorem Writes.bind {p q : FrameStream Unit} {bs cs : Bytes} (hp : Writes p bs) (hq : Writes q cs) :
    Writes (p >>= fun _ => q) (bs ++ cs) := by
  intro fbuf
  obtain ⟨fbuf₁, hrun₁, hoff₁, hdata₁⟩ := hp fbuf
  obtain ⟨fbuf₂, hrun₂, hoff₂, hdata₂⟩ := hq fbuf₁
  refine ⟨fbuf₂, ?_, hoff₂.trans hoff₁, by rw [hdata₂, hdata₁, List.append_assoc]⟩
  show (p fbuf >>= fun r => q r.2) = _
  rw [hrun₁]
  exact hrun₂

theorem writes_writeBytes (buf : Bytes) : Writes (writeBytes buf) buf :=
  fun fbuf => ⟨fbuf.write buf, rfl, rfl, by simp⟩

theorem writes_putSize {l : Nat} (h : l < 2 ^ 32) :
    Writes (putSize l) (networkLongToBuf (UInt32.ofNat l)) := by
  rw [putSize, if_neg (by omega)]
  exact writes_writeBytes _

/-- The bytes of a string: its length and then its characters. -/
def encodeString (s : Bytes) : Bytes := networkLongToBuf (UInt32.ofNat s.length) ++ s

theorem writes_putString {s : Bytes} (h : s.length < 2 ^ 32) :
    Writes (putString s) (encodeString s) :=
  (writes_putSize h).bind (writes_writeBytes s)

theorem writes_putEach {put : α → FrameStream Unit} {encode : α → Bytes} {v : List α}
    (h : ∀ c ∈ v, Writes (put c) (encode c)) : Writes (putEach put v) (v.map encode).flatten := by
  induction v with
  | nil => exact writes_pure
  | cons c v ih =>
      exact (h c (by simp)).bind (ih fun d hd => h d (List.mem_cons_of_mem c hd))

/-- The bytes of a vector: the number of elements and then the elements. -/
def encodeVector (encode : α → Bytes) (v : List α) : Bytes :=
  networkLongToBuf (UInt32.ofNat v.length) ++ (v.map encode).flatten

theorem writes_putVector {put : α → FrameStream Unit} {encode : α → Bytes} {v : List α}
    (hlen : v.length < 2 ^ 32) (h : ∀ c ∈ v, Writes (put c) (encode c)) :
    Writes (putVector put v) (encodeVector encode v) :=
  (writes_putSize hlen).bind (writes_putEach h)

/-! ## What an operator takes off -/

/-- On any buffer whose unread part starts with `bytes`, `get` gives `a` and leaves the rest. -/
def Reads (get : FrameStream α) (a : α) (bytes : Bytes) : Prop :=
  ∀ fbuf rest, fbuf.unread = bytes ++ rest →
    ∃ fbuf', get fbuf = .ok (a, fbuf') ∧ fbuf'.unread = rest

theorem reads_pure (a : α) : Reads (pure a) a [] :=
  fun fbuf _ h => ⟨fbuf, rfl, h⟩

theorem Reads.bind {get : FrameStream α} {k : α → FrameStream β} {a : α} {b : β} {bs cs : Bytes}
    (hget : Reads get a bs) (hk : Reads (k a) b cs) : Reads (get >>= k) b (bs ++ cs) := by
  intro fbuf rest h
  rw [List.append_assoc] at h
  obtain ⟨fbuf₁, hrun₁, hrest₁⟩ := hget fbuf _ h
  obtain ⟨fbuf₂, hrun₂, hrest₂⟩ := hk fbuf₁ rest hrest₁
  refine ⟨fbuf₂, ?_, hrest₂⟩
  show (get fbuf >>= fun r => k r.1 r.2) = _
  rw [hrun₁]
  exact hrun₂

theorem Reads.map {get : FrameStream α} {a : α} {bs : Bytes} (hget : Reads get a bs) (f : α → β) :
    Reads (do return f (← get)) (f a) bs := by
  have h := hget.bind (k := fun a => pure (f a)) (reads_pure (f a))
  rwa [List.append_nil] at h

theorem reads_readBytes (buf : Bytes) : Reads (readBytes buf.length) buf buf := by
  intro fbuf rest h
  have hle : buf.length ≤ fbuf.unread.length := by
    rw [h, List.length_append]
    omega
  obtain ⟨fbuf', hread, hrest, -⟩ := FrameBuffer.read_spec hle
  rw [h, List.take_left' rfl] at hread
  rw [h, List.drop_left' rfl] at hrest
  exact ⟨fbuf', hread, hrest⟩

theorem reads_getChar (c : UInt8) : Reads getChar c [c] :=
  (reads_readBytes [c]).map fun buf => buf.headD 0

theorem reads_getBool (b : Bool) : Reads getBool b [if b then 1 else 0] := by
  have h := (reads_getChar (if b then 1 else 0)).map fun c => c == 1
  cases b <;> exact h

theorem reads_getUInt32 (i : UInt32) : Reads getUInt32 i (networkLongToBuf i) := by
  have h := (reads_readBytes (networkLongToBuf i)).map bufToNetworkLong
  rwa [bufToNetworkLong_networkLongToBuf] at h

theorem reads_getInt32 (i : Int32) : Reads getInt32 i (networkLongToBuf i.toUInt32) := by
  have h := (reads_getUInt32 i.toUInt32).map UInt32.toInt32
  rwa [Int32.toInt32_toUInt32] at h

theorem reads_getSize {l : Nat} (h : l < 2 ^ 32) :
    Reads getSize l (networkLongToBuf (UInt32.ofNat l)) := by
  have hreads := (reads_getUInt32 (UInt32.ofNat l)).map UInt32.toNat
  rwa [UInt32.toNat_ofNat_of_lt' h] at hreads

theorem reads_getString {s : Bytes} (h : s.length < 2 ^ 32) :
    Reads getString s (encodeString s) :=
  (reads_getSize h).bind (reads_readBytes s)

theorem reads_getEach {get : FrameStream α} {encode : α → Bytes} {v : List α}
    (h : ∀ c ∈ v, Reads get c (encode c)) :
    Reads (getEach get v.length) v (v.map encode).flatten := by
  induction v with
  | nil => exact reads_pure []
  | cons c v ih =>
      exact (h c (by simp)).bind ((ih fun d hd => h d (List.mem_cons_of_mem c hd)).map (c :: ·))

theorem reads_getVector {get : FrameStream α} {encode : α → Bytes} {v : List α}
    (hlen : v.length < 2 ^ 32) (h : ∀ c ∈ v, Reads get c (encode c)) :
    Reads (getVector get) v (encodeVector encode v) :=
  (reads_getSize hlen).bind (reads_getEach h)

end FrameStream

end SquawkBus.Serialization
