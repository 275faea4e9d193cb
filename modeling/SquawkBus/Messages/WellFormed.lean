import SquawkBus.Messages.RoundTrip

/-!
# Well-formed frames

Which byte sequences hold a message, said without any message: the first byte names a class, and
each field that the class lists in its `layout` is there to its end. `deserialize` returns on
exactly these frames (`isSome_ofFrame_iff`); on the others it throws a literal or reads past the
end of its buffer. What it returns is a message no longer than the frame.
-/

namespace SquawkBus.Messages

open SquawkBus.Serialization SquawkBus.Serialization.FrameStream

/-! ## Stepping over a field -/

def skipBytes (n : Nat) (bytes : Bytes) : Option Bytes :=
  if n ≤ bytes.length then some (bytes.drop n) else none

/-- A length, and as many bytes. -/
def skipString (bytes : Bytes) : Option Bytes := (networkLong.next bytes).map (·.2)

def skipEach (skip : Bytes → Option Bytes) : Nat → Bytes → Option Bytes
  | 0, bytes => some bytes
  | n + 1, bytes => (skip bytes).bind (skipEach skip n)

/-- A number, and as many values. -/
def skipVector (skip : Bytes → Option Bytes) (bytes : Bytes) : Option Bytes :=
  (skipBytes 4 bytes).bind (skipEach skip (bufToNetworkLong (bytes.take 4)).toNat)

/-- The entitlement, the content type and the data of a packet. -/
def skipPacket (bytes : Bytes) : Option Bytes :=
  (skipBytes 4 bytes).bind fun bytes => (skipString bytes).bind skipString

/-! ### Layouts -/

/-- The fields of the messages. -/
inductive Field where
  | bool
  | string
  | packets

def Field.skip : Field → Bytes → Option Bytes
  | bool => skipBytes 1
  | string => skipString
  | packets => skipVector skipPacket

def skipFields : List Field → Bytes → Option Bytes
  | [], bytes => some bytes
  | field :: fields, bytes => (field.skip bytes).bind (skipFields fields)

/-- The fields of each class, in order. -/
def layout : MessageType → List Field
  | .authenticationRequest => [.string, .string]
  | .authenticationResponse => [.bool]
  | .multicastData => [.string, .packets]
  | .unicastData => [.string, .string, .packets]
  | .forwardedSubscriptionRequest => [.string, .string, .string, .string, .bool]
  | .notificationRequest => [.string, .bool]
  | .subscriptionRequest => [.string, .bool]
  | .forwardedMulticastData => [.string, .string, .string, .packets]
  | .forwardedUnicastData => [.string, .string, .string, .string, .packets]

/-- The frame starts with the type byte of a class and has all of its fields; more bytes may
follow. -/
def WellFormed : Bytes → Prop
  | [] => False
  | c :: body => ((MessageType.ofChar c).bind fun t => skipFields (layout t) body).isSome

instance decidableWellFormed : ∀ frame, Decidable (WellFormed frame)
  | [] => isFalse id
  | _ :: _ => inferInstanceAs (Decidable (_ = true))

/-! ## What has been stepped over -/

theorem skipBytes_eq_some {n : Nat} {bytes rest : Bytes} (h : skipBytes n bytes = some rest) :
    n ≤ bytes.length ∧ rest = bytes.drop n := by
  unfold skipBytes at h
  split at h
  · next hle => exact ⟨hle, (Option.some.inj h).symm⟩
  · cases h

theorem skipBool_eq_some {bytes rest : Bytes} (h : skipBytes 1 bytes = some rest) :
    ∃ c, bytes = [c] ++ rest := by
  obtain ⟨hle, rfl⟩ := skipBytes_eq_some h
  cases bytes with
  | nil => simp at hle
  | cons c bytes => exact ⟨c, rfl⟩

theorem skipString_eq_some {bytes rest : Bytes} (h : skipString bytes = some rest) :
    ∃ s, s.length < 2 ^ 32 ∧ bytes = encodeString s ++ rest := by
  obtain ⟨⟨s, rest'⟩, hnext, rfl⟩ := Option.map_eq_some_iff.mp h
  obtain ⟨hlt, heq⟩ := LengthPrefix.next_eq_some_iff.mp hnext
  exact ⟨s, hlt, heq⟩

theorem skipPacket_eq_some {bytes rest : Bytes} (h : skipPacket bytes = some rest) :
    ∃ p : DataPacket, p.Fits ∧ bytes = p.encode ++ rest := by
  obtain ⟨bytes₁, hentitlement, h⟩ := Option.bind_eq_some_iff.mp h
  obtain ⟨bytes₂, hcontentType, hdata⟩ := Option.bind_eq_some_iff.mp h
  obtain ⟨hle, rfl⟩ := skipBytes_eq_some hentitlement
  obtain ⟨contentType, hfits, heq⟩ := skipString_eq_some hcontentType
  obtain ⟨data, hfits', rfl⟩ := skipString_eq_some hdata
  refine ⟨⟨(bufToNetworkLong (bytes.take 4)).toInt32, contentType, data⟩, ⟨hfits, hfits'⟩, ?_⟩
  have htake : (bytes.take 4).length = 4 := by
    rw [List.length_take]
    omega
  have hchars : (data.map fun c => [c]).flatten = data := by
    rw [← List.flatMap_def, List.flatMap_singleton']
  rw [DataPacket.encode, encodeVector, hchars, UInt32.toUInt32_toInt32,
    networkLongToBuf_bufToNetworkLong htake]
  calc bytes = bytes.take 4 ++ bytes.drop 4 := (List.take_append_drop 4 bytes).symm
    _ = bytes.take 4 ++ (encodeString contentType ++ (encodeString data ++ rest)) := by rw [heq]
    _ = _ := by simp [encodeString]

theorem skipEach_eq_some {n : Nat} {bytes rest : Bytes} (h : skipEach skipPacket n bytes = some rest) :
    ∃ ps : List DataPacket, ps.length = n ∧ (∀ p ∈ ps, p.Fits) ∧
      bytes = (ps.map DataPacket.encode).flatten ++ rest := by
  induction n generalizing bytes with
  | zero => exact ⟨[], rfl, by simp, by simpa [skipEach] using h⟩
  | succ n ih =>
      obtain ⟨bytes₁, hpacket, hrest⟩ := Option.bind_eq_some_iff.mp h
      obtain ⟨p, hp, rfl⟩ := skipPacket_eq_some hpacket
      obtain ⟨ps, hlen, hps, rfl⟩ := ih hrest
      refine ⟨p :: ps, by simp [hlen], fun q hq => ?_, by simp⟩
      rcases List.mem_cons.mp hq with rfl | hq
      · exact hp
      · exact hps q hq

theorem skipPackets_eq_some {bytes rest : Bytes} (h : skipVector skipPacket bytes = some rest) :
    ∃ ps : List DataPacket, PacketsFit ps ∧ bytes = encodePackets ps ++ rest := by
  obtain ⟨bytes₁, hnumber, h⟩ := Option.bind_eq_some_iff.mp h
  obtain ⟨hle, rfl⟩ := skipBytes_eq_some hnumber
  obtain ⟨ps, hlen, hps, heq⟩ := skipEach_eq_some h
  have hlt : ps.length < 2 ^ 32 := hlen ▸ UInt32.toNat_lt _
  have htake : (bytes.take 4).length = 4 := by
    rw [List.length_take]
    omega
  refine ⟨ps, ⟨hlt, hps⟩, ?_⟩
  rw [encodePackets, encodeVector, hlen, UInt32.ofNat_toNat,
    networkLongToBuf_bufToNetworkLong htake, List.append_assoc, ← heq, List.take_append_drop]

/-! ## A well-formed frame is read -/

section

variable {fields : List Field} {bytes rest : Bytes}

theorem skipFields_nil (h : skipFields [] bytes = some rest) : bytes = rest := Option.some.inj h

theorem skipFields_bool (h : skipFields (.bool :: fields) bytes = some rest) :
    ∃ c bytes', bytes = [c] ++ bytes' ∧ skipFields fields bytes' = some rest := by
  obtain ⟨bytes', hbool, h⟩ := Option.bind_eq_some_iff.mp h
  obtain ⟨c, heq⟩ := skipBool_eq_some hbool
  exact ⟨c, bytes', heq, h⟩

theorem skipFields_string (h : skipFields (.string :: fields) bytes = some rest) :
    ∃ s bytes', s.length < 2 ^ 32 ∧ bytes = encodeString s ++ bytes' ∧
      skipFields fields bytes' = some rest := by
  obtain ⟨bytes', hstring, h⟩ := Option.bind_eq_some_iff.mp h
  obtain ⟨s, hlt, heq⟩ := skipString_eq_some hstring
  exact ⟨s, bytes', hlt, heq, h⟩

theorem skipFields_packets (h : skipFields (.packets :: fields) bytes = some rest) :
    ∃ ps bytes', PacketsFit ps ∧ bytes = encodePackets ps ++ bytes' ∧
      skipFields fields bytes' = some rest := by
  obtain ⟨bytes', hpackets, h⟩ := Option.bind_eq_some_iff.mp h
  obtain ⟨ps, hfit, heq⟩ := skipPackets_eq_some hpackets
  exact ⟨ps, bytes', hfit, heq, h⟩

end

/-- Any byte but 1 is read as `false`. -/
theorem reads_getBool_any (c : UInt8) : Reads getBool (c == 1) [c] :=
  (reads_getChar c).map fun c => c == 1

/-- The fields of a body make a message, which is as long as they are. -/
theorem reads_body {t : MessageType} {body rest : Bytes}
    (h : skipFields (layout t) body = some rest) :
    ∃ (m : Message) (taken : Bytes), m.messageType = t ∧ m.Fits ∧ body = taken ++ rest ∧
      taken.length = m.encodeBody.length ∧ Reads (Message.deserializeBody t) m taken := by
  -- Where the class has no `bool`, what is read is what would be written.
  have hencoded : ∀ m : Message, m.Fits → body = m.encodeBody ++ rest → m.messageType = t →
      ∃ (m : Message) (taken : Bytes), m.messageType = t ∧ m.Fits ∧ body = taken ++ rest ∧
        taken.length = m.encodeBody.length ∧ Reads (Message.deserializeBody t) m taken := by
    rintro m hm hbody rfl
    exact ⟨m, m.encodeBody, rfl, hm, hbody, rfl, (Message.carries_body hm).reads⟩
  cases t with
  | authenticationRequest =>
      obtain ⟨method, _, hmethod, rfl, h₁⟩ := skipFields_string h
      obtain ⟨data, _, hdata, rfl, h₂⟩ := skipFields_string h₁
      obtain rfl := skipFields_nil h₂
      exact hencoded (.authenticationRequest ⟨method, data⟩) ⟨hmethod, hdata⟩
        (by simp [Message.encodeBody]) rfl
  | authenticationResponse =>
      obtain ⟨c, _, rfl, h₁⟩ := skipFields_bool h
      obtain rfl := skipFields_nil h₁
      exact ⟨.authenticationResponse ⟨c == 1⟩, [c], rfl, trivial, rfl, rfl,
        ((reads_getBool_any c).map _).map _⟩
  | multicastData =>
      obtain ⟨topic, _, htopic, rfl, h₁⟩ := skipFields_string h
      obtain ⟨packets, _, hpackets, rfl, h₂⟩ := skipFields_packets h₁
      obtain rfl := skipFields_nil h₂
      exact hencoded (.multicastData ⟨topic, packets⟩) ⟨htopic, hpackets⟩
        (by simp [Message.encodeBody]) rfl
  | unicastData =>
      obtain ⟨id, _, hid, rfl, h₁⟩ := skipFields_string h
      obtain ⟨topic, _, htopic, rfl, h₂⟩ := skipFields_string h₁
      obtain ⟨packets, _, hpackets, rfl, h₃⟩ := skipFields_packets h₂
      obtain rfl := skipFields_nil h₃
      exact hencoded (.unicastData ⟨id, topic, packets⟩) ⟨hid, htopic, hpackets⟩
        (by simp [Message.encodeBody]) rfl
  | forwardedSubscriptionRequest =>
      obtain ⟨user, _, huser, rfl, h₁⟩ := skipFields_string h
      obtain ⟨host, _, hhost, rfl, h₂⟩ := skipFields_string h₁
      obtain ⟨id, _, hid, rfl, h₃⟩ := skipFields_string h₂
      obtain ⟨topic, _, htopic, rfl, h₄⟩ := skipFields_string h₃
      obtain ⟨c, _, rfl, h₅⟩ := skipFields_bool h₄
      obtain rfl := skipFields_nil h₅
      refine ⟨.forwardedSubscriptionRequest ⟨user, host, id, topic, c == 1⟩,
        encodeString user ++ (encodeString host ++ (encodeString id ++ (encodeString topic ++ [c]))),
        rfl, ⟨huser, hhost, hid, htopic⟩, by simp, by simp [Message.encodeBody], ?_⟩
      exact ((reads_getString huser).bind ((reads_getString hhost).bind ((reads_getString hid).bind
        ((reads_getString htopic).bind ((reads_getBool_any c).map _))))).map _
  | notificationRequest =>
      obtain ⟨pattern, _, hpattern, rfl, h₁⟩ := skipFields_string h
      obtain ⟨c, _, rfl, h₂⟩ := skipFields_bool h₁
      obtain rfl := skipFields_nil h₂
      exact ⟨.notificationRequest ⟨pattern, c == 1⟩, encodeString pattern ++ [c], rfl, hpattern,
        by simp, by simp [Message.encodeBody],
        ((reads_getString hpattern).bind ((reads_getBool_any c).map _)).map _⟩
  | subscriptionRequest =>
      obtain ⟨topic, _, htopic, rfl, h₁⟩ := skipFields_string h
      obtain ⟨c, _, rfl, h₂⟩ := skipFields_bool h₁
      obtain rfl := skipFields_nil h₂
      exact ⟨.subscriptionRequest ⟨topic, c == 1⟩, encodeString topic ++ [c], rfl, htopic,
        by simp, by simp [Message.encodeBody],
        ((reads_getString htopic).bind ((reads_getBool_any c).map _)).map _⟩
  | forwardedMulticastData =>
      obtain ⟨user, _, huser, rfl, h₁⟩ := skipFields_string h
      obtain ⟨host, _, hhost, rfl, h₂⟩ := skipFields_string h₁
      obtain ⟨topic, _, htopic, rfl, h₃⟩ := skipFields_string h₂
      obtain ⟨packets, _, hpackets, rfl, h₄⟩ := skipFields_packets h₃
      obtain rfl := skipFields_nil h₄
      exact hencoded (.forwardedMulticastData ⟨user, host, topic, packets⟩)
        ⟨huser, hhost, htopic, hpackets⟩ (by simp [Message.encodeBody]) rfl
  | forwardedUnicastData =>
      obtain ⟨user, _, huser, rfl, h₁⟩ := skipFields_string h
      obtain ⟨host, _, hhost, rfl, h₂⟩ := skipFields_string h₁
      obtain ⟨id, _, hid, rfl, h₃⟩ := skipFields_string h₂
      obtain ⟨topic, _, htopic, rfl, h₄⟩ := skipFields_string h₃
      obtain ⟨packets, _, hpackets, rfl, h₅⟩ := skipFields_packets h₄
      obtain rfl := skipFields_nil h₅
      exact hencoded (.forwardedUnicastData ⟨user, host, id, topic, packets⟩)
        ⟨huser, hhost, hid, htopic, hpackets⟩ (by simp [Message.encodeBody]) rfl

/-- **A well-formed frame holds a message**, and one that is no longer than the frame. -/
theorem ofFrame_of_wellFormed {frame : Bytes} (h : WellFormed frame) :
    ∃ m : Message, Message.ofFrame frame = some m ∧ m.Fits ∧ m.encode.length ≤ frame.length := by
  cases frame with
  | nil => exact h.elim
  | cons c body =>
      obtain ⟨rest, h⟩ := Option.isSome_iff_exists.mp h
      obtain ⟨t, htype, hfields⟩ := Option.bind_eq_some_iff.mp h
      obtain ⟨m, taken, hm, hfits, rfl, hlength, hreads⟩ := reads_body hfields
      refine ⟨m, ?_, hfits, ?_⟩
      · have hmake : Message.makeShared c = pure t := by rw [Message.makeShared, htype]
        have hall : Reads Message.deserialize m (c :: taken) := by
          refine (reads_getChar c).bind (k := fun c => Message.makeShared c >>=
            Message.deserializeBody) ?_
          rw [hmake, pure_bind]
          exact hreads
        obtain ⟨input, hread, -⟩ := hall (FrameBuffer.empty.write (c :: (taken ++ rest))) rest
          (by simp)
        rw [Message.ofFrame, hread]
      · rw [Message.encode, List.length_cons, List.length_cons, List.length_append]
        omega

/-! ## What is read is well formed -/

section

variable {α β : Type}

/-- Where `get` returns, `skip` steps over what it has taken. -/
def Skips (get : FrameStream α) (skip : Bytes → Option Bytes) : Prop :=
  ∀ fbuf a fbuf', get fbuf = .ok (a, fbuf') → skip fbuf.unread = some fbuf'.unread

theorem Skips.map {get : FrameStream α} {skip : Bytes → Option Bytes} (h : Skips get skip)
    (f : α → β) : Skips (do return f (← get)) skip := by
  intro fbuf b fbuf' hrun
  obtain ⟨⟨a, fbuf''⟩, hget, heq⟩ := Except.bind_eq_ok.mp hrun
  cases heq
  exact h fbuf a fbuf' hget

theorem Skips.bind {get : FrameStream α} {k : α → FrameStream β}
    {skip skip' : Bytes → Option Bytes} (h : Skips get skip) (hk : ∀ a, Skips (k a) skip') :
    Skips (get >>= k) fun bytes => (skip bytes).bind skip' := by
  intro fbuf b fbuf' hrun
  obtain ⟨⟨a, fbuf''⟩, hget, hrest⟩ := Except.bind_eq_ok.mp hrun
  simp only [h fbuf a fbuf'' hget, Option.bind_some]
  exact hk a fbuf'' b fbuf' hrest

theorem skips_readBytes (n : Nat) : Skips (readBytes n) (skipBytes n) := by
  intro fbuf buf fbuf' hread
  obtain ⟨hle, -, hrest⟩ := FrameBuffer.read_eq_ok hread
  rw [skipBytes, if_pos hle, hrest]

theorem skips_getBool : Skips getBool (skipBytes 1) :=
  ((skips_readBytes 1).map fun buf => buf.headD 0).map fun c => c == 1

theorem skips_getInt32 : Skips getInt32 (skipBytes 4) :=
  ((skips_readBytes 4).map bufToNetworkLong).map UInt32.toInt32

/-- The length that is read is the one that is stepped by. -/
theorem getSize_eq_ok {fbuf fbuf' : FrameBuffer} {n : Nat} (h : getSize fbuf = .ok (n, fbuf')) :
    skipBytes 4 fbuf.unread = some fbuf'.unread ∧
      n = (bufToNetworkLong (fbuf.unread.take 4)).toNat := by
  obtain ⟨⟨u, fbuf₁⟩, hget, heq⟩ := Except.bind_eq_ok.mp h
  cases heq
  obtain ⟨⟨buf, fbuf₂⟩, hread, heq⟩ := Except.bind_eq_ok.mp hget
  cases heq
  obtain ⟨-, hbuf, -⟩ := FrameBuffer.read_eq_ok hread
  exact ⟨skips_readBytes 4 fbuf buf fbuf' hread, by rw [hbuf]⟩

theorem skipString_eq (bytes : Bytes) : skipString bytes =
    (skipBytes 4 bytes).bind (skipBytes (bufToNetworkLong (bytes.take 4)).toNat) := by
  have hnext : networkLong.next bytes =
      if 4 ≤ bytes.length ∧ (bufToNetworkLong (bytes.take 4)).toNat ≤ bytes.length - 4 then
        some ((bytes.drop 4).take (bufToNetworkLong (bytes.take 4)).toNat,
          (bytes.drop 4).drop (bufToNetworkLong (bytes.take 4)).toNat)
      else none := rfl
  rw [skipString, hnext, skipBytes]
  by_cases hle : 4 ≤ bytes.length
  · by_cases hbody : (bufToNetworkLong (bytes.take 4)).toNat ≤ bytes.length - 4
    · simp [hle, hbody, skipBytes]
    · simp [hle, hbody, skipBytes]
  · simp [hle]

theorem skips_getString : Skips getString skipString := by
  intro fbuf s fbuf' hrun
  obtain ⟨⟨n, fbuf₁⟩, hsize, hread⟩ := Except.bind_eq_ok.mp hrun
  obtain ⟨hskip, rfl⟩ := getSize_eq_ok hsize
  rw [skipString_eq, hskip, Option.bind_some]
  exact skips_readBytes _ fbuf₁ s fbuf' hread

theorem skips_getEach {get : FrameStream α} {skip : Bytes → Option Bytes} (h : Skips get skip)
    (n : Nat) : Skips (getEach get n) (skipEach skip n) := by
  induction n with
  | zero =>
      intro fbuf v fbuf' hrun
      cases hrun
      rfl
  | succ n ih => exact h.bind fun c => ih.map (c :: ·)

theorem skips_getVector {get : FrameStream α} {skip : Bytes → Option Bytes} (h : Skips get skip) :
    Skips (getVector get) (skipVector skip) := by
  intro fbuf v fbuf' hrun
  obtain ⟨⟨n, fbuf₁⟩, hsize, heach⟩ := Except.bind_eq_ok.mp hrun
  obtain ⟨hskip, rfl⟩ := getSize_eq_ok hsize
  rw [skipVector, hskip, Option.bind_some]
  exact skips_getEach h _ fbuf₁ v fbuf' heach

/-- A vector of characters takes what a string takes. -/
theorem skipVector_char : skipVector (skipBytes 1) = skipString := by
  have heach : ∀ n (bytes : Bytes), skipEach (skipBytes 1) n bytes = skipBytes n bytes := by
    intro n
    induction n with
    | zero => intro bytes; simp [skipEach, skipBytes]
    | succ n ih =>
        intro bytes
        cases bytes with
        | nil => simp [skipEach, skipBytes]
        | cons c bytes => simp [skipEach, skipBytes, ih]
  funext bytes
  rw [skipVector, skipString_eq, funext (heach _)]

theorem skips_packets : Skips (getVector DataPacket.deserialize) (skipVector skipPacket) := by
  refine skips_getVector (skips_getInt32.bind fun _ => skips_getString.bind fun _ => ?_)
  have hchars : Skips (getVector getChar) (skipVector (skipBytes 1)) :=
    skips_getVector ((skips_readBytes 1).map fun buf => buf.headD 0)
  rw [skipVector_char] at hchars
  exact hchars.map _

theorem Skips.field {get : FrameStream α} {k : α → FrameStream β} {field : Field}
    {fields : List Field} (h : Skips get field.skip) (hk : ∀ a, Skips (k a) (skipFields fields)) :
    Skips (get >>= k) (skipFields (field :: fields)) := h.bind hk

theorem Skips.last {get : FrameStream α} {field : Field} (h : Skips get field.skip) (f : α → β) :
    Skips (do return f (← get)) (skipFields [field]) := by
  intro fbuf b fbuf' hrun
  rw [skipFields, h.map f fbuf b fbuf' hrun]
  rfl

theorem skips_bool : Skips getBool Field.bool.skip := skips_getBool

theorem skips_string : Skips getString Field.string.skip := skips_getString

/-- Each class reads the fields of its layout. -/
theorem skips_body (t : MessageType) : Skips (Message.deserializeBody t) (skipFields (layout t)) := by
  have hpackets : Skips (getVector DataPacket.deserialize) Field.packets.skip := skips_packets
  cases t with
  | authenticationRequest =>
      exact (skips_string.field fun _ => skips_string.last _).map _
  | authenticationResponse => exact (skips_bool.last _).map _
  | multicastData => exact (skips_string.field fun _ => hpackets.last _).map _
  | unicastData =>
      exact (skips_string.field fun _ => skips_string.field fun _ => hpackets.last _).map _
  | forwardedSubscriptionRequest =>
      exact (skips_string.field fun _ => skips_string.field fun _ => skips_string.field fun _ =>
        skips_string.field fun _ => skips_bool.last _).map _
  | notificationRequest => exact (skips_string.field fun _ => skips_bool.last _).map _
  | subscriptionRequest => exact (skips_string.field fun _ => skips_bool.last _).map _
  | forwardedMulticastData =>
      exact (skips_string.field fun _ => skips_string.field fun _ => skips_string.field fun _ =>
        hpackets.last _).map _
  | forwardedUnicastData =>
      exact (skips_string.field fun _ => skips_string.field fun _ => skips_string.field fun _ =>
        skips_string.field fun _ => hpackets.last _).map _

end

/-! ## The result -/

/-- **The frames that hold a message are the well-formed ones.** -/
theorem isSome_ofFrame_iff (frame : Bytes) : (Message.ofFrame frame).isSome ↔ WellFormed frame := by
  constructor
  · intro h
    unfold Message.ofFrame at h
    split at h
    · next message rest hrun =>
      obtain ⟨⟨c, fbuf₁⟩, hchar, hrun⟩ := Except.bind_eq_ok.mp hrun
      obtain ⟨⟨t, fbuf₂⟩, hmake, hbody⟩ := Except.bind_eq_ok.mp hrun
      obtain ⟨⟨buf, fbuf₃⟩, hread, heq⟩ := Except.bind_eq_ok.mp hchar
      cases heq
      obtain ⟨hle, hbuf, hrest⟩ := FrameBuffer.read_eq_ok hread
      have htype : MessageType.ofChar (buf.headD 0) = some t ∧ fbuf₂ = fbuf₁ := by
        cases ht : MessageType.ofChar (buf.headD 0) with
        | none => rw [Message.makeShared, ht] at hmake; cases hmake
        | some t' => rw [Message.makeShared, ht] at hmake; cases hmake; exact ⟨rfl, rfl⟩
      obtain ⟨htype, rfl⟩ := htype
      have hskip := skips_body t _ _ _ hbody
      cases frame with
      | nil => simp at hle
      | cons c body =>
          simp only [FrameBuffer.unread_write, FrameBuffer.unread_empty, List.nil_append,
            List.take_succ_cons, List.take_zero, List.drop_succ_cons, List.drop_zero] at hbuf hrest
          rw [hbuf] at htype
          rw [hrest] at hskip
          show ((MessageType.ofChar c).bind fun t => skipFields (layout t) body).isSome
          rw [show MessageType.ofChar c = some t from htype, Option.bind_some, hskip]
          rfl
    · cases h
  · intro h
    obtain ⟨m, hm, -⟩ := ofFrame_of_wellFormed h
    rw [hm]
    rfl

end SquawkBus.Messages
