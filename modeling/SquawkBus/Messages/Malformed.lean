import SquawkBus.Messages.WellFormed

/-!
# Malformed frames

What `deserialize` does with a frame that holds no message. An unknown type byte is refused with an
exception. Nothing refuses a field that is cut short: lengths and numbers are taken as they come,
and `FrameBuffer::read` goes on past the end of the frame, which is undefined behaviour. It is the
only thing on the way that is (`FrameBuffer.read_eq_error_iff`), so a frame is dealt with properly
exactly when it has no such field (`endsProperly_iff`).
-/

namespace SquawkBus.Messages

open SquawkBus.Serialization SquawkBus.Serialization.FrameStream

/-! ## The statement -/

/-- `deserialize` ends with a message or with an exception: no `read` on the way has been asked for
more than the frame had left. -/
def EndsProperly (frame : Bytes) : Prop :=
  (∃ message rest, Message.deserialize (FrameBuffer.empty.write frame) = .ok (message, rest)) ∨
    ∃ e, Message.deserialize (FrameBuffer.empty.write frame) = .error (.thrown e)

/-- The frame has a type byte, and if that names a class, all the fields of the class. -/
def NotCutShort : Bytes → Prop
  | [] => False
  | c :: body => ∀ t ∈ MessageType.ofChar c, (skipFields (layout t) body).isSome

instance : ∀ frame, Decidable (NotCutShort frame)
  | [] => isFalse id
  | c :: body => inferInstanceAs (Decidable (∀ t ∈ MessageType.ofChar c,
      (skipFields (layout t) body).isSome))

/-! ## Field by field -/

section

variable {α β : Type}

/-- The only way for `get` to fail is to read past the end. -/
def FailsByReading (get : FrameStream α) : Prop :=
  ∀ fbuf fault, get fbuf = .error fault → fault = .undefined

theorem failsByReading_readBytes (len : Nat) : FailsByReading (readBytes len) :=
  fun _ _ h => (FrameBuffer.read_eq_error_iff.mp h).1

theorem failsByReading_pure (a : α) : FailsByReading (pure a : FrameStream α) :=
  fun _ _ h => nomatch h

theorem FailsByReading.bind {get : FrameStream α} {k : α → FrameStream β}
    (h : FailsByReading get) (hk : ∀ a, FailsByReading (k a)) : FailsByReading (get >>= k) := by
  intro fbuf fault hrun
  cases hget : get fbuf with
  | error fault' =>
      have heq : (get >>= k) fbuf = .error fault' := by
        show (get fbuf >>= fun p => k p.1 p.2) = _
        rw [hget]
        rfl
      rw [heq] at hrun
      cases hrun
      exact h fbuf fault hget
  | ok answer =>
      obtain ⟨a, fbuf'⟩ := answer
      have heq : (get >>= k) fbuf = k a fbuf' := by
        show (get fbuf >>= fun p => k p.1 p.2) = _
        rw [hget]
        rfl
      rw [heq] at hrun
      exact hk a fbuf' fault hrun

theorem FailsByReading.map {get : FrameStream α} (h : FailsByReading get) (f : α → β) :
    FailsByReading (do return f (← get)) :=
  h.bind fun a => failsByReading_pure (f a)

theorem failsByReading_getChar : FailsByReading getChar := (failsByReading_readBytes 1).map _

theorem failsByReading_getBool : FailsByReading getBool := failsByReading_getChar.map _

theorem failsByReading_getUInt32 : FailsByReading getUInt32 := (failsByReading_readBytes 4).map _

theorem failsByReading_getSize : FailsByReading getSize := failsByReading_getUInt32.map _

theorem failsByReading_getInt32 : FailsByReading getInt32 := failsByReading_getUInt32.map _

theorem failsByReading_getString : FailsByReading getString :=
  failsByReading_getSize.bind failsByReading_readBytes

theorem failsByReading_getEach {get : FrameStream α} (h : FailsByReading get) (n : Nat) :
    FailsByReading (getEach get n) := by
  induction n with
  | zero => exact failsByReading_pure []
  | succ n ih => exact h.bind fun c => ih.map (c :: ·)

theorem failsByReading_getVector {get : FrameStream α} (h : FailsByReading get) :
    FailsByReading (getVector get) :=
  failsByReading_getSize.bind (failsByReading_getEach h)

theorem failsByReading_packets : FailsByReading (getVector DataPacket.deserialize) :=
  failsByReading_getVector <| failsByReading_getInt32.bind fun _ =>
    failsByReading_getString.bind fun _ => (failsByReading_getVector failsByReading_getChar).map _

end

/-- No class checks its fields. -/
theorem failsByReading_body (t : MessageType) : FailsByReading (Message.deserializeBody t) := by
  have hstring := failsByReading_getString
  cases t with
  | authenticationRequest => exact (hstring.bind fun _ => hstring.map _).map _
  | authenticationResponse => exact (failsByReading_getBool.map _).map _
  | multicastData => exact (hstring.bind fun _ => failsByReading_packets.map _).map _
  | unicastData =>
      exact (hstring.bind fun _ => hstring.bind fun _ => failsByReading_packets.map _).map _
  | forwardedSubscriptionRequest =>
      exact (hstring.bind fun _ => hstring.bind fun _ => hstring.bind fun _ => hstring.bind fun _ =>
        failsByReading_getBool.map _).map _
  | notificationRequest => exact (hstring.bind fun _ => failsByReading_getBool.map _).map _
  | subscriptionRequest => exact (hstring.bind fun _ => failsByReading_getBool.map _).map _
  | forwardedMulticastData =>
      exact (hstring.bind fun _ => hstring.bind fun _ => hstring.bind fun _ =>
        failsByReading_packets.map _).map _
  | forwardedUnicastData =>
      exact (hstring.bind fun _ => hstring.bind fun _ => hstring.bind fun _ => hstring.bind fun _ =>
        failsByReading_packets.map _).map _

/-! ## Frames -/

/-- There is no type byte to read. -/
theorem deserialize_nil : Message.deserialize (FrameBuffer.empty.write []) = .error .undefined := by
  have hchar : getChar (FrameBuffer.empty.write []) = .error .undefined := by decide +kernel
  show (getChar (FrameBuffer.empty.write []) >>= fun p =>
    (Message.makeShared p.1 >>= Message.deserializeBody) p.2) = _
  rw [hchar]
  rfl

/-- The type byte is taken off first. -/
theorem deserialize_cons (c : UInt8) (body : Bytes) :
    ∃ fbuf, Message.deserialize (FrameBuffer.empty.write (c :: body)) =
      (Message.makeShared c >>= Message.deserializeBody) fbuf := by
  obtain ⟨fbuf, hget, -⟩ := reads_getChar c (FrameBuffer.empty.write (c :: body)) body (by simp)
  refine ⟨fbuf, ?_⟩
  show (getChar (FrameBuffer.empty.write (c :: body)) >>= fun p =>
    (Message.makeShared p.1 >>= Message.deserializeBody) p.2) = _
  rw [hget]
  rfl

/-- A frame is read past its end, or has an unknown type byte. -/
theorem deserialize_eq_error {frame : Bytes} {fault : Fault}
    (h : Message.deserialize (FrameBuffer.empty.write frame) = .error fault) :
    fault = .undefined ∨ fault = .thrown (.charLiteral "invalid") := by
  cases frame with
  | nil =>
      rw [deserialize_nil] at h
      exact .inl (Except.error.inj h).symm
  | cons c body =>
      obtain ⟨fbuf, hrun⟩ := deserialize_cons c body
      rw [hrun] at h
      cases htype : MessageType.ofChar c with
      | none =>
          rw [Message.makeShared, htype] at h
          exact .inr (Except.error.inj h).symm
      | some t =>
          rw [Message.makeShared, htype] at h
          exact .inl (failsByReading_body t fbuf fault h)

/-- **Which frames are dealt with properly**: those that are not cut short. -/
theorem endsProperly_iff (frame : Bytes) : EndsProperly frame ↔ NotCutShort frame := by
  cases frame with
  | nil => simp [EndsProperly, NotCutShort, deserialize_nil]
  | cons c body =>
      obtain ⟨fbuf, hrun⟩ := deserialize_cons c body
      cases htype : MessageType.ofChar c with
      | none =>
          have hthrown : Message.deserialize (FrameBuffer.empty.write (c :: body)) =
              .error (.thrown (.charLiteral "invalid")) := by
            rw [hrun, Message.makeShared, htype]
            rfl
          simp [EndsProperly, NotCutShort, hthrown, htype]
      | some t =>
          have hbody : Message.deserialize (FrameBuffer.empty.write (c :: body)) =
              Message.deserializeBody t fbuf := by
            rw [hrun, Message.makeShared, htype]
            rfl
          have hwell : NotCutShort (c :: body) ↔ WellFormed (c :: body) := by
            simp [NotCutShort, WellFormed, htype]
          rw [hwell, ← isSome_ofFrame_iff]
          unfold EndsProperly Message.ofFrame
          cases hanswer : Message.deserialize (FrameBuffer.empty.write (c :: body)) with
          | ok answer => exact ⟨fun _ => rfl, fun _ => .inl ⟨answer.1, answer.2, rfl⟩⟩
          | error fault =>
              obtain rfl := failsByReading_body t fbuf fault (hbody ▸ hanswer)
              simp

/-- A string that is one byte short: the reader looks for it behind the end. -/
theorem short_string_over_read : ¬ EndsProperly [1, 0, 0, 0, 2, 65] := by
  have hread : Message.deserialize (FrameBuffer.empty.write [1, 0, 0, 0, 2, 65]) =
      .error .undefined := by
    decide +kernel
  simp [EndsProperly, hread]

end SquawkBus.Messages
