import SquawkBus.Messages.RoundTrip

/-!
# What can be sent

`serialize` throws on a length that four bytes cannot hold, and the conversion of the frame goes wrong
from `2 ^ 31` bytes on. So a message that does reach the poller is there in full: what is put into the
write queue is the message on the wire, and nothing else (`wire_of_serialize`).
-/

namespace SquawkBus.Messages

open SquawkBus.Serialization SquawkBus.Serialization.FrameStream

/-! ## What can be serialized -/

variable {α : Type} {p q : Prop}

/-- The operator returns only where `p` holds. -/
def Demands (put : FrameStream Unit) (p : Prop) : Prop := ∀ fbuf r, put fbuf = .ok r → p

theorem Demands.bind {put put' : FrameStream Unit} (h : Demands put p) (h' : Demands put' q) :
    Demands (put >>= fun _ => put') (p ∧ q) := by
  intro fbuf r hrun
  obtain ⟨first, hfirst, hsecond⟩ := Except.bind_eq_ok.mp hrun
  exact ⟨h _ _ hfirst, h' _ _ hsecond⟩

theorem demands_writeBytes (buf : Bytes) : Demands (writeBytes buf) True := fun _ _ _ => trivial

theorem demands_putSize (l : Nat) : Demands (putSize l) (l < 2 ^ 32) := by
  intro fbuf r hrun
  unfold putSize at hrun
  split at hrun
  · cases hrun
  · omega

theorem demands_putString (s : Bytes) : Demands (putString s) (s.length < 2 ^ 32) :=
  fun fbuf r hrun => ((demands_putSize s.length).bind (demands_writeBytes s) fbuf r hrun).1

theorem demands_putEach {put : α → FrameStream Unit} {fits : α → Prop} {v : List α}
    (h : ∀ c, Demands (put c) (fits c)) : Demands (putEach put v) (∀ c ∈ v, fits c) := by
  induction v with
  | nil => exact fun _ _ _ c hc => absurd hc List.not_mem_nil
  | cons c v ih =>
      intro fbuf r hrun
      obtain ⟨hc, hv⟩ := (h c).bind ih fbuf r hrun
      exact List.forall_mem_cons.mpr ⟨hc, hv⟩

theorem demands_putVector {put : α → FrameStream Unit} {fits : α → Prop} {v : List α}
    (h : ∀ c, Demands (put c) (fits c)) :
    Demands (putVector put v) (v.length < 2 ^ 32 ∧ ∀ c ∈ v, fits c) :=
  (demands_putSize v.length).bind (demands_putEach h)

theorem demands_serialize (packet : DataPacket) : Demands packet.serialize packet.Fits := by
  intro fbuf r hrun
  obtain ⟨-, htype, hlength, -⟩ := (demands_writeBytes _).bind
    ((demands_putString packet.contentType).bind
      (demands_putVector fun c => demands_writeBytes [c])) fbuf r hrun
  exact ⟨htype, hlength⟩

theorem demands_packets (packets : List DataPacket) :
    Demands (putVector DataPacket.serialize packets) (PacketsFit packets) := by
  intro fbuf r hrun
  obtain ⟨hlength, hpackets⟩ := demands_putVector demands_serialize fbuf r hrun
  exact ⟨hlength, hpackets⟩

/-! ## What a bound on the length is worth -/

/-- Packets that are written within the bound can be written. -/
theorem packetsFit_of_length {ps : List DataPacket} (h : (encodePackets ps).length < 2 ^ 32) :
    PacketsFit ps := by
  refine ⟨?_, fun p hp => ?_⟩
  · have hcount : ps.length ≤ (ps.map DataPacket.encode).flatten.length := by
      induction ps with
      | nil => exact Nat.le_refl 0
      | cons p ps ih =>
          have hrest : (encodePackets ps).length < 2 ^ 32 :=
            Nat.lt_of_le_of_lt (length_encodePackets_le (List.sublist_cons_self p ps)) h
          have hle := ih hrest
          simp only [List.map_cons, List.flatten_cons, List.length_append, List.length_cons,
            DataPacket.encode, length_networkLongToBuf]
          omega
    simp only [encodePackets, encodeVector, List.length_append] at h
    omega
  · have hle := length_encodePackets_le (List.singleton_sublist.mpr hp)
    have hdata : (p.data.map fun c => [c]).flatten = p.data := by
      rw [← List.flatMap_def, List.flatMap_singleton']
    simp only [encodePackets, encodeVector, DataPacket.encode, encodeString, hdata, List.map_cons,
      List.map_nil, List.flatten_cons, List.length_append, length_networkLongToBuf] at hle h
    constructor <;> omega

namespace Message

/-- A message that is not too long has no part that is. -/
theorem fits_of_length {m : Message} (h : m.encode.length < 2 ^ 32) : m.Fits := by
  cases m with
  | authenticationResponse m => trivial
  | multicastData m =>
      simp only [encode, encodeBody, encodeString, List.length_cons, List.length_append] at h
      exact ⟨by omega, packetsFit_of_length (by omega)⟩
  | unicastData m =>
      simp only [encode, encodeBody, encodeString, List.length_cons, List.length_append] at h
      exact ⟨by omega, by omega, packetsFit_of_length (by omega)⟩
  | forwardedMulticastData m =>
      simp only [encode, encodeBody, encodeString, List.length_cons, List.length_append] at h
      exact ⟨by omega, by omega, by omega, packetsFit_of_length (by omega)⟩
  | forwardedUnicastData m =>
      simp only [encode, encodeBody, encodeString, List.length_cons, List.length_append] at h
      exact ⟨by omega, by omega, by omega, by omega, packetsFit_of_length (by omega)⟩
  | _ =>
      simp only [encode, encodeBody, encodeString, List.length_cons, List.length_append] at h
      simp only [Fits]
      omega

/-- A body that can be written has lengths of four bytes each. -/
theorem demands_serializeBody (m : Message) : Demands m.serializeBody m.Fits := by
  cases m with
  | authenticationRequest m => exact (demands_putString m.method).bind (demands_putString m.data)
  | authenticationResponse m => exact fun _ _ _ => trivial
  | multicastData m => exact (demands_putString m.topic).bind (demands_packets m.dataPackets)
  | unicastData m =>
      exact (demands_putString m.clientId).bind
        ((demands_putString m.topic).bind (demands_packets m.dataPackets))
  | forwardedSubscriptionRequest m =>
      intro fbuf r hrun
      obtain ⟨huser, hhost, hid, htopic, -⟩ := (demands_putString m.user).bind
        ((demands_putString m.host).bind ((demands_putString m.clientId).bind
          ((demands_putString m.topic).bind (demands_writeBytes _)))) fbuf r hrun
      exact ⟨huser, hhost, hid, htopic⟩
  | notificationRequest m =>
      exact fun fbuf r hrun =>
        ((demands_putString m.topicPattern).bind (demands_writeBytes _) fbuf r hrun).1
  | subscriptionRequest m =>
      exact fun fbuf r hrun =>
        ((demands_putString m.topic).bind (demands_writeBytes _) fbuf r hrun).1
  | forwardedMulticastData m =>
      exact (demands_putString m.user).bind ((demands_putString m.host).bind
        ((demands_putString m.topic).bind (demands_packets m.dataPackets)))
  | forwardedUnicastData m =>
      exact (demands_putString m.user).bind ((demands_putString m.host).bind
        ((demands_putString m.clientId).bind
          ((demands_putString m.topic).bind (demands_packets m.dataPackets))))

/-! ## What has been serialized -/

theorem fits_of_serialize {m : Message} {frame : FrameBuffer} (h : m.serialize = .ok frame) :
    m.Fits := by
  obtain ⟨written, hrun, -⟩ := Except.bind_eq_ok.mp h
  exact ((demands_writeBytes [m.messageType.toChar]).bind m.demands_serializeBody _ _ hrun).2

/-- **What goes to the poller is the message on the wire.** -/
theorem wire_of_serialize {m : Message} {buf : Bytes}
    (h : (m.serialize >>= FrameBuffer.toVector) = .ok buf) :
    m.Fits ∧ m.encode.length < 2 ^ 31 ∧ buf = m.wire := by
  obtain ⟨frame, hser, hvector⟩ := Except.bind_eq_ok.mp h
  have hfits := fits_of_serialize hser
  obtain ⟨frame', hser', -, hdata⟩ := serialize_eq hfits
  obtain rfl : frame = frame' := Except.ok.inj (hser.symm.trans hser')
  obtain ⟨-, hret, -⟩ := FrameBuffer.toVector_eq_ok_iff.mp hvector
  have hlength : m.encode.length < 2 ^ 31 := by
    rw [← hdata]
    exact hret
  rw [toVector_serialize hfits hlength] at h
  exact ⟨hfits, hlength, (Except.ok.inj h).symm⟩

/-! ## Frames and their messages -/

/-- A frame that holds a message is read as this message. -/
theorem ofFrame_encode {m : Message} (h : m.Fits) : ofFrame m.encode = some m := by
  obtain ⟨rest, hread, -⟩ := reads_deserialize h (FrameBuffer.empty.write m.encode) [] (by simp)
  unfold ofFrame
  rw [hread]

/-- The messages in frames; of a frame that holds none comes no message. -/
def ofFrames (frames : List Bytes) : List Message := frames.filterMap ofFrame

@[simp] theorem ofFrames_nil : ofFrames [] = [] := rfl

@[simp] theorem ofFrames_append (frames frames' : List Bytes) :
    ofFrames (frames ++ frames') = ofFrames frames ++ ofFrames frames' :=
  List.filterMap_append

theorem ofFrames_encode {messages : List Message} (h : ∀ m ∈ messages, m.Fits) :
    ofFrames (messages.map encode) = messages := by
  induction messages with
  | nil => rfl
  | cons m messages ih =>
      obtain ⟨hm, hmessages⟩ := List.forall_mem_cons.mp h
      rw [List.map_cons, ofFrames, List.filterMap_cons, ofFrame_encode hm]
      exact congrArg (m :: ·) (ih hmessages)

theorem encode_ofFrames {messages : List Message} (h : ∀ m ∈ messages, m.Fits) {frames : List Bytes}
    (hframes : frames <+: messages.map encode) : (ofFrames frames).map encode = frames := by
  have hfirst : frames = (messages.take frames.length).map encode := by
    rw [List.map_take]
    exact List.prefix_iff_eq_take.mp hframes
  rw [hfirst, ofFrames_encode fun m hm => h m (List.mem_of_mem_take hm)]

/-- Messages on the wire are the wire of their frames. -/
theorem flatMap_wire (messages : List Message) :
    messages.flatMap wire = networkLong.wire (messages.map encode) := by
  rw [LengthPrefix.wire, List.map_map, List.flatMap_def]
  rfl

/-- **What a reader makes of messages on the wire**, however they are cut: the first of them. -/
theorem ofFrames_run {messages : List Message}
    (hfits : ∀ m ∈ messages, m.Fits ∧ m.encode.length < 2 ^ 31) {chunks : List Bytes}
    (hchunks : chunks.flatten <+: messages.flatMap wire) :
    (LengthPrefix.Reader.run networkLong chunks).out <+: messages.map encode ∧
      ofFrames (LengthPrefix.Reader.run networkLong chunks).out <+: messages := by
  have hbodies : ∀ b ∈ messages.map encode, b.length < networkLong.bound := by
    intro b hb
    obtain ⟨m, hm, rfl⟩ := List.mem_map.mp hb
    exact (hfits m hm).2.trans (by decide)
  rw [flatMap_wire] at hchunks
  have hout := LengthPrefix.Reader.out_prefix hbodies hchunks
  refine ⟨hout, ?_⟩
  have hmessages := hout.filterMap ofFrame
  rwa [← ofFrames, ← ofFrames, ofFrames_encode fun m hm => (hfits m hm).1] at hmessages

end Message

/-! ## The record of a connection -/

/-- One end of a connection: the bytes read, the messages that were made of them, the messages sent, and
the bytes written. -/
structure Line where
  received : Bytes
  processed : List Message
  sent : List Message
  written : Bytes

namespace Line

/-- A connection just opened. -/
def new : Line := ⟨[], [], [], []⟩

/-- Each of the messages sent has a frame, of a length that is an `int`. -/
def Sendable (line : Line) : Prop := ∀ m ∈ line.sent, m.Fits ∧ m.encode.length < 2 ^ 31

theorem Sendable.snoc {line : Line} (h : line.Sendable) {m : Message}
    (hm : m.Fits ∧ m.encode.length < 2 ^ 31) : { line with sent := line.sent ++ [m] }.Sendable :=
  List.forall_mem_append.mpr ⟨h, List.forall_mem_singleton.mpr hm⟩

/-- The messages processed are those of the chunks, and the chunks are the first of what was read. -/
structure Heard (line : Line) (passed : List Bytes) : Prop where
  processed : line.processed = Message.ofFrames (LengthPrefix.Reader.run networkLong passed).out
  inOrder : passed.flatten <+: line.received

variable {line other : Line} {passed : List Bytes}

/-- **Of what the other end has sent** the first messages are processed. -/
theorem Heard.processed_prefix (h : line.Heard passed) (hsendable : other.Sendable)
    (hreceived : line.received <+: other.sent.flatMap Message.wire) :
    line.processed <+: other.sent := by
  rw [h.processed]
  exact (Message.ofFrames_run hsendable (h.inOrder.trans hreceived)).2

/-- **What was read** is the messages processed, and what the reader holds of the next. -/
theorem Heard.wire_append_pending (h : line.Heard passed) (hsendable : other.Sendable)
    (hreceived : line.received <+: other.sent.flatMap Message.wire)
    (hall : passed.flatten = line.received) :
    line.received = line.processed.flatMap Message.wire ++
      (LengthPrefix.Reader.run networkLong passed).pending := by
  have hframes := (Message.ofFrames_run hsendable (h.inOrder.trans hreceived)).1
  rw [h.processed, Message.flatMap_wire,
    Message.encode_ofFrames (fun m hm => (hsendable m hm).1) hframes, ← hall]
  exact (LengthPrefix.Reader.stream_run passed).symm

end Line

end SquawkBus.Messages
