import Mathlib.Data.List.Flatten
import SquawkBus.Messages.Serialize
import SquawkBus.Serialization.FrameReader

/-!
# The wire format, and that reading undoes writing

`encode` is the byte sequence of a message, stated apart from the code that produces it. For every
class the operators that write a body and those that read it agree on the same bytes
(`Carries`), and the dispatch on the type byte puts the nine classes together.
-/

namespace SquawkBus.Messages

open SquawkBus.Serialization SquawkBus.Serialization.FrameStream

/-! ## Fields -/

variable {α β : Type}

/-- `put` writes the bytes from which `get` reads `a` back. -/
structure Carries (put : FrameStream Unit) (get : FrameStream α) (a : α) (bytes : Bytes) :
    Prop where
  writes : Writes put bytes
  reads : Reads get a bytes

theorem Carries.bind {p q : FrameStream Unit} {get : FrameStream α} {k : α → FrameStream β}
    {a : α} {b : β} {bs cs : Bytes} (h : Carries p get a bs) (hk : Carries q (k a) b cs) :
    Carries (p >>= fun _ => q) (get >>= k) b (bs ++ cs) :=
  ⟨h.writes.bind hk.writes, h.reads.bind hk.reads⟩

theorem Carries.map {p : FrameStream Unit} {get : FrameStream α} {a : α} {bs : Bytes}
    (h : Carries p get a bs) (f : α → β) : Carries p (do return f (← get)) (f a) bs :=
  ⟨h.writes, h.reads.map f⟩

theorem carries_char (c : UInt8) : Carries (putChar c) getChar c [c] :=
  ⟨writes_writeBytes [c], reads_getChar c⟩

theorem carries_bool (b : Bool) : Carries (putBool b) getBool b [if b then 1 else 0] :=
  ⟨writes_writeBytes _, reads_getBool b⟩

theorem carries_int32 (i : Int32) :
    Carries (putInt32 i) getInt32 i (networkLongToBuf i.toUInt32) :=
  ⟨writes_writeBytes _, reads_getInt32 i⟩

theorem carries_string {s : Bytes} (h : s.length < 2 ^ 32) :
    Carries (putString s) getString s (encodeString s) :=
  ⟨writes_putString h, reads_getString h⟩

theorem carries_vector {put : α → FrameStream Unit} {get : FrameStream α} {encode : α → Bytes}
    {v : List α} (hlen : v.length < 2 ^ 32)
    (h : ∀ c ∈ v, Carries (put c) get c (encode c)) :
    Carries (putVector put v) (getVector get) v (encodeVector encode v) :=
  ⟨writes_putVector hlen fun c hc => (h c hc).writes,
    reads_getVector hlen fun c hc => (h c hc).reads⟩

/-! ## Packets -/

namespace DataPacket

/-- The lengths of a packet can be written in four bytes. -/
structure Fits (p : DataPacket) : Prop where
  contentType : p.contentType.length < 2 ^ 32
  data : p.data.length < 2 ^ 32

instance (p : DataPacket) : Decidable p.Fits :=
  decidable_of_iff (p.contentType.length < 2 ^ 32 ∧ p.data.length < 2 ^ 32)
    ⟨fun h => ⟨h.1, h.2⟩, fun h => ⟨h.contentType, h.data⟩⟩

def encode (p : DataPacket) : Bytes :=
  networkLongToBuf p.entitlement.toUInt32 ++
    (encodeString p.contentType ++ encodeVector (fun c => [c]) p.data)

theorem carries {p : DataPacket} (h : p.Fits) : Carries p.serialize deserialize p p.encode :=
  (carries_int32 p.entitlement).bind <| (carries_string h.contentType).bind <|
    (carries_vector h.data fun c _ => carries_char c).map _

end DataPacket

/-- A list of packets with encodable lengths. -/
structure PacketsFit (ps : List DataPacket) : Prop where
  length : ps.length < 2 ^ 32
  packets : ∀ p ∈ ps, p.Fits

instance (ps : List DataPacket) : Decidable (PacketsFit ps) :=
  decidable_of_iff (ps.length < 2 ^ 32 ∧ ∀ p ∈ ps, p.Fits)
    ⟨fun h => ⟨h.1, h.2⟩, fun h => ⟨h.length, h.packets⟩⟩

def encodePackets (ps : List DataPacket) : Bytes := encodeVector DataPacket.encode ps

theorem PacketsFit.sublist {ps qs : List DataPacket} (h : PacketsFit ps) (hqs : qs.Sublist ps) :
    PacketsFit qs :=
  ⟨Nat.lt_of_le_of_lt hqs.length_le h.length, fun p hp => h.packets p (hqs.subset hp)⟩

theorem length_encodePackets_le {ps qs : List DataPacket} (h : qs.Sublist ps) :
    (encodePackets qs).length ≤ (encodePackets ps).length := by
  have hle := (h.map DataPacket.encode).flatten.length_le
  simp only [encodePackets, encodeVector, List.length_append, length_networkLongToBuf]
  omega

theorem carries_packets {ps : List DataPacket} (h : PacketsFit ps) :
    Carries (putVector DataPacket.serialize ps) (getVector DataPacket.deserialize) ps
      (encodePackets ps) :=
  carries_vector h.length fun p hp => DataPacket.carries (h.packets p hp)

/-! ## The nine classes -/

namespace Message

/-- Every length in the message can be written in four bytes. -/
def Fits : Message → Prop
  | .authenticationRequest m => m.method.length < 2 ^ 32 ∧ m.data.length < 2 ^ 32
  | .authenticationResponse _ => True
  | .multicastData m => m.topic.length < 2 ^ 32 ∧ PacketsFit m.dataPackets
  | .unicastData m =>
      m.clientId.length < 2 ^ 32 ∧ m.topic.length < 2 ^ 32 ∧ PacketsFit m.dataPackets
  | .forwardedSubscriptionRequest m =>
      m.user.length < 2 ^ 32 ∧ m.host.length < 2 ^ 32 ∧ m.clientId.length < 2 ^ 32 ∧
        m.topic.length < 2 ^ 32
  | .notificationRequest m => m.topicPattern.length < 2 ^ 32
  | .subscriptionRequest m => m.topic.length < 2 ^ 32
  | .forwardedMulticastData m =>
      m.user.length < 2 ^ 32 ∧ m.host.length < 2 ^ 32 ∧ m.topic.length < 2 ^ 32 ∧
        PacketsFit m.dataPackets
  | .forwardedUnicastData m =>
      m.user.length < 2 ^ 32 ∧ m.host.length < 2 ^ 32 ∧ m.clientId.length < 2 ^ 32 ∧
        m.topic.length < 2 ^ 32 ∧ PacketsFit m.dataPackets

instance decidableFits (m : Message) : Decidable m.Fits := by
  cases m <;> unfold Fits <;> infer_instance

/-- The bytes of the body. -/
def encodeBody : Message → Bytes
  | .authenticationRequest m => encodeString m.method ++ encodeString m.data
  | .authenticationResponse m => [if m.isAuthenticated then 1 else 0]
  | .multicastData m => encodeString m.topic ++ encodePackets m.dataPackets
  | .unicastData m =>
      encodeString m.clientId ++ (encodeString m.topic ++ encodePackets m.dataPackets)
  | .forwardedSubscriptionRequest m =>
      encodeString m.user ++ (encodeString m.host ++ (encodeString m.clientId ++
        (encodeString m.topic ++ [if m.isAdd then 1 else 0])))
  | .notificationRequest m => encodeString m.topicPattern ++ [if m.isAdd then 1 else 0]
  | .subscriptionRequest m => encodeString m.topic ++ [if m.isAdd then 1 else 0]
  | .forwardedMulticastData m =>
      encodeString m.user ++ (encodeString m.host ++ (encodeString m.topic ++
        encodePackets m.dataPackets))
  | .forwardedUnicastData m =>
      encodeString m.user ++ (encodeString m.host ++ (encodeString m.clientId ++
        (encodeString m.topic ++ encodePackets m.dataPackets)))

/-- The bytes of the message: its type and its body. -/
def encode (m : Message) : Bytes := m.messageType.toChar :: m.encodeBody

/-- Each class reads back, field by field, what it has written. -/
theorem carries_body {m : Message} (h : m.Fits) :
    Carries m.serializeBody (deserializeBody m.messageType) m m.encodeBody := by
  cases m with
  | authenticationRequest m =>
      exact ((carries_string h.1).bind ((carries_string h.2).map _)).map _
  | authenticationResponse m => exact ((carries_bool m.isAuthenticated).map _).map _
  | multicastData m => exact ((carries_string h.1).bind ((carries_packets h.2).map _)).map _
  | unicastData m =>
      obtain ⟨hid, htopic, hpackets⟩ := h
      exact ((carries_string hid).bind ((carries_string htopic).bind
        ((carries_packets hpackets).map _))).map _
  | forwardedSubscriptionRequest m =>
      obtain ⟨huser, hhost, hid, htopic⟩ := h
      exact ((carries_string huser).bind ((carries_string hhost).bind ((carries_string hid).bind
        ((carries_string htopic).bind ((carries_bool m.isAdd).map _))))).map _
  | notificationRequest m => exact ((carries_string h).bind ((carries_bool m.isAdd).map _)).map _
  | subscriptionRequest m => exact ((carries_string h).bind ((carries_bool m.isAdd).map _)).map _
  | forwardedMulticastData m =>
      obtain ⟨huser, hhost, htopic, hpackets⟩ := h
      exact ((carries_string huser).bind ((carries_string hhost).bind
        ((carries_string htopic).bind ((carries_packets hpackets).map _)))).map _
  | forwardedUnicastData m =>
      obtain ⟨huser, hhost, hid, htopic, hpackets⟩ := h
      exact ((carries_string huser).bind ((carries_string hhost).bind ((carries_string hid).bind
        ((carries_string htopic).bind ((carries_packets hpackets).map _))))).map _

/-! ### The wire -/

/-- `serialize` puts exactly the bytes of the message into a new buffer. -/
theorem serialize_eq {m : Message} (h : m.Fits) :
    ∃ frame, m.serialize = .ok frame ∧ frame.offset = 0 ∧ frame.data.flatten = m.encode := by
  have hwrites : Writes (do putChar m.messageType.toChar; m.serializeBody) m.encode :=
    (writes_writeBytes [m.messageType.toChar]).bind (carries_body h).writes
  obtain ⟨frame, hrun, hoff, hdata⟩ := hwrites FrameBuffer.empty
  refine ⟨frame, ?_, hoff, hdata⟩
  rw [serialize, hrun]
  rfl

/-- The message on the wire, with its length in front. -/
def wire (m : Message) : Bytes := networkLong.frame m.encode

theorem toVector_serialize {m : Message} (h : m.Fits) (hlt : m.encode.length < 2 ^ 31) :
    (m.serialize >>= FrameBuffer.toVector) = .ok m.wire := by
  obtain ⟨frame, hser, hoff, hdata⟩ := serialize_eq h
  have hret : frame.retained = m.encode.length := by rw [FrameBuffer.retained, hdata]
  rw [hser]
  refine FrameBuffer.toVector_eq_ok_iff.mpr ⟨hoff, by omega, ?_⟩
  rw [hret, hdata]
  rfl

/-- `deserialize` reads the message off its bytes. -/
theorem reads_deserialize {m : Message} (h : m.Fits) : Reads deserialize m m.encode := by
  have hmake : makeShared m.messageType.toChar = pure m.messageType := by
    rw [makeShared, MessageType.ofChar_toChar]
  refine (reads_getChar m.messageType.toChar).bind (k := fun c => makeShared c >>= deserializeBody)
    ?_
  rw [hmake, pure_bind]
  exact (carries_body h).reads

/-- **Decoding undoes encoding.** `serialize` succeeds, and `deserialize`, applied to any buffer
that goes on with what it wrote, gives the message back and leaves what comes after it. -/
theorem deserialize_serialize (m : Message) (h : m.Fits) :
    ∃ frame, m.serialize = .ok frame ∧ ∀ (input : FrameBuffer) (rest : Bytes),
      input.unread = frame.unread ++ rest →
        ∃ input', deserialize input = .ok (m, input') ∧ input'.unread = rest := by
  obtain ⟨frame, hser, hoff, hdata⟩ := serialize_eq h
  refine ⟨frame, hser, fun input rest hinput => ?_⟩
  have hunread : frame.unread = m.encode := by
    rw [FrameBuffer.unread, hoff, List.drop_zero, hdata]
  rw [hunread] at hinput
  exact reads_deserialize h input rest hinput

/-- A unicast with two packets, a negative entitlement and an empty string. -/
theorem deserialize_serialize_unicast :
    ∃ frame, (unicastData ⟨[99, 49], [], [⟨-1, [116], [72, 105]⟩, ⟨2, [], []⟩]⟩).serialize =
        .ok frame ∧ ∀ (input : FrameBuffer) (rest : Bytes), input.unread = frame.unread ++ rest →
      ∃ input', deserialize input =
          .ok (unicastData ⟨[99, 49], [], [⟨-1, [116], [72, 105]⟩, ⟨2, [], []⟩]⟩, input') ∧
        input'.unread = rest :=
  deserialize_serialize _ (by decide)

end Message

end SquawkBus.Messages
