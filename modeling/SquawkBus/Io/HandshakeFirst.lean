import SquawkBus.Io.PollHandlers
import SquawkBus.Library.Run

/-!
# No data before the handshake

On a stream with TLS no application bytes are read or written before the handshake is complete, and on
that of a client not before the peer has been verified. The state of a stream does not say so by itself:
it is DATA already when the peer fails its check. But then an exception is on its way, and the handler
that catches it marks the socket as closed and never uses the stream again.
-/

namespace SquawkBus.Io

open ByteQueue Call StreamEvent

/-! ## Data behind a handshake -/

/-- Data moves only after the handshake and, for a client, after the check of the peer. -/
def Guarded (isClient : Bool) (events : List StreamEvent) : Prop :=
  Run.Preceded (fun e => isData e = true) (· = .handshake 1) events ∧
    (isClient = true → Run.Preceded (fun e => isData e = true) (· = .verify true) events)

/-- The handshake is complete and a client has verified its peer. -/
def Established (isClient : Bool) (events : List StreamEvent) : Prop :=
  .handshake 1 ∈ events ∧ (isClient = true → .verify true ∈ events)

variable {isClient : Bool} {events more : List StreamEvent}

theorem Established.append (h : Established isClient events) (more : List StreamEvent) :
    Established isClient (events ++ more) :=
  ⟨List.mem_append_left more h.1, fun hclient => List.mem_append_left more (h.2 hclient)⟩

/-- Calls that move no data can always be made. -/
theorem Guarded.quiet (h : Guarded isClient events) (hmore : Quiet more) :
    Guarded isClient (events ++ more) := by
  have hnone : ∀ e ∈ more, isData e = true → False := by
    intro e he hdata
    rw [hmore e he] at hdata
    cases hdata
  exact ⟨h.1.append fun e he hdata => (hnone e he hdata).elim,
    fun hclient => (h.2 hclient).append fun e he hdata => (hnone e he hdata).elim⟩

/-- On an established connection data can be moved. -/
theorem Guarded.data (h : Guarded isClient events) (hestablished : Established isClient events)
    (more : List StreamEvent) : Guarded isClient (events ++ more) :=
  ⟨h.1.append fun _ _ _ => ⟨_, hestablished.1, rfl⟩,
    fun hclient => (h.2 hclient).append fun _ _ _ => ⟨_, hestablished.2 hclient, rfl⟩⟩

namespace TcpStream

/-! ## Streams -/

/-- **A stream that may be used**: the handshake is still to be made, or the connection has been
established. -/
def Secure (isClient : Bool) (stream : TcpStream) (events : List StreamEvent) : Prop :=
  stream.ssl = true ∧ stream.shouldVerify = isClient ∧ Guarded isClient events ∧
    (stream.state = .handshake ∨ Established isClient events)

/-- A stream on which data may be moved. -/
def Usable (isClient : Bool) (stream : TcpStream) (events : List StreamEvent) : Prop :=
  stream.ssl = true ∧ stream.shouldVerify = isClient ∧ Guarded isClient events ∧
    Established isClient events

theorem Usable.secure {stream : TcpStream} (h : Usable isClient stream events) :
    Secure isClient stream events :=
  ⟨h.1, h.2.1, h.2.2.1, .inr h.2.2.2⟩

/-- The shutdown of a stream that is usable leaves it so, or throws. -/
theorem Usable.post_shutdownAttempt {stream : TcpStream} (h : Usable isClient stream events)
    (hstate : stream.state ≠ .handshake) (α : Type) (answers : Answers) :
    Post events (shutdownAttempt α answers stream) (fun _ => Secure isClient) fun _ _ events' =>
      Guarded isClient events' := by
  refine (TcpStream.post_shutdownAttempt α answers hstate).mono ?_ ?_
  · rintro attempt s _ ⟨-, more, rfl, hquiet, hssl, hverify, -⟩
    exact ⟨hssl.trans h.1, hverify.trans h.2.1, h.2.2.1.quiet hquiet, .inr (h.2.2.2.append more)⟩
  · rintro e s _ ⟨more, rfl, hquiet, -⟩
    exact h.2.2.1.quiet hquiet

/-- **What comes before the `BIO`**: it is used on a usable stream only. -/
theorem Secure.post_prepared {α : Type} {answers : Answers}
    {io : TcpStream → StreamCall (Attempt α)} {stream : TcpStream}
    (h : Secure isClient stream events)
    (hio : ∀ s events', Usable isClient s events' → Post events' (io s) (fun _ => Secure isClient)
      fun _ _ events'' => Guarded isClient events'') :
    Post events (prepared answers io stream) (fun _ => Secure isClient) fun _ _ events' =>
      Guarded isClient events' := by
  obtain ⟨hssl, hverify, hguarded, hstate⟩ := h
  refine TcpStream.post_prepared
    (R := fun s events' => Usable isClient s events' ∧ s.state ≠ .handshake)
    (fun hhandshake => ?_) (fun hdata => ?_) (fun s events' hs hshutdown => ?_)
    fun s events' hs _ => hio s events' hs.1
  · refine (post_doHandshake answers hssl hhandshake).mono ?_ ?_
    · rintro isDone s _ ⟨more, rfl, hquiet, rfl, hdone⟩
      cases isDone with
      | true =>
          obtain ⟨hcomplete, hverified⟩ := hdone rfl
          refine ⟨⟨hssl, hverify, hguarded.quiet hquiet, List.mem_append_right events hcomplete,
            fun hclient => List.mem_append_right events (hverified ?_)⟩, by simp⟩
          rw [hverify, hclient]
      | false => exact ⟨hssl, hverify, hguarded.quiet hquiet, .inl hhandshake⟩
    · rintro e s _ ⟨more, rfl, hquiet, -⟩
      exact hguarded.quiet hquiet
  · exact ⟨⟨hssl, hverify, hguarded, hstate.resolve_left hdata⟩, hdata⟩
  · exact hs.1.post_shutdownAttempt hs.2 α answers

/-- A fault on a usable stream leaves it usable. -/
theorem Usable.post_handleClientFaulted {stream : TcpStream} (h : Usable isClient stream events)
    {E : Exn → TcpStream → List StreamEvent → Prop} :
    Post events (handleClientFaulted stream) (fun _ => Usable isClient) E := by
  refine (TcpStream.post_handleClientFaulted stream).mono ?_ fun _ _ _ h => h.elim
  rintro - _ _ ⟨rfl, more, rfl, hquiet⟩
  exact ⟨h.1, h.2.1, h.2.2.1.quiet hquiet, h.2.2.2.append more⟩

/-- **A read** of a stream that may be used leaves it so, or throws. -/
theorem Secure.post_read {stream : TcpStream} (h : Secure isClient stream events) (answers : Answers)
    (len : Nat) :
    Post events (read answers len stream) (fun _ => Secure isClient) fun _ _ events' =>
      Guarded isClient events' := by
  refine h.post_prepared fun s events' hs => ?_
  refine post_andThen (R := fun _ => Usable isClient) ?_ fun data s events' hs => ?_
  · exact ⟨hs.1, hs.2.1, hs.2.2.1.data hs.2.2.2 _, hs.2.2.2.append _⟩
  · split
    · split
      · exact post_ret hs.secure
      · split
        · have hs' : Usable isClient { s with state := .shutdown } events' := hs
          exact hs'.post_shutdownAttempt (by simp) Bytes answers
        · refine post_andThen hs.post_handleClientFaulted fun _ t _ ht => post_ret ?_
          have ht' : Usable isClient { t with isOpen := false } _ := ht
          exact ht'.secure
    · have hs' : Usable isClient { s with isOpen := false } events' := hs
      exact post_ret hs'.secure
    · exact post_ret hs.secure

/-- **A write** to a stream that may be used leaves it so, or throws. -/
theorem Secure.post_write {stream : TcpStream} (h : Secure isClient stream events)
    (answers : Answers) (buf : Bytes) :
    Post events (write answers buf stream) (fun _ => Secure isClient) fun _ _ events' =>
      Guarded isClient events' := by
  refine h.post_prepared fun s events' hs => ?_
  refine post_andThen (R := fun _ => Usable isClient) ?_ fun written s events' hs => ?_
  · exact ⟨hs.1, hs.2.1, hs.2.2.1.data hs.2.2.2 _, hs.2.2.2.append _⟩
  · split
    · split
      · exact post_ret hs.secure
      · have hs' : Usable isClient { s with isOpen := false } events' := hs
        exact post_andThen hs'.post_handleClientFaulted fun _ t _ ht => post_throws ht.2.2.1
    · have hs' : Usable isClient { s with isOpen := false } events' := hs
      exact post_ret hs'.secure
    · exact post_ret hs.secure

end TcpStream

namespace TcpSocketPollHandler

/-! ## Handlers -/

/-- **What a handler keeps**: its stream may be used as long as the socket is open. -/
def Safe (isClient : Bool) (handler : TcpSocketPollHandler) (events : List StreamEvent) : Prop :=
  Guarded isClient events ∧ (handler.isOpen = true → handler.stream.Secure isClient events)

variable {handler : TcpSocketPollHandler}

/-- A handler whose stream may be used, open or not. -/
theorem safe_of_secure (h : handler.stream.Secure isClient events) : Safe isClient handler events :=
  ⟨h.2.2.1, fun _ => h⟩

/-- **A handler marked as closed** is safe, whatever its stream is. -/
theorem safe_markClosed (h : Guarded isClient events) (handler : TcpSocketPollHandler) :
    Safe isClient handler.markClosed events := by
  refine ⟨h, fun hopen => ?_⟩
  cases hopen

theorem Safe.post_read (h : Safe isClient handler events) (answers : List Answers) :
    Post events (handler.read answers) (fun _ => Safe isClient) fun _ => Safe isClient := by
  refine post_andThen (R := fun _ => Safe isClient) ?_ fun _ _ _ h => post_ret h
  refine post_catching (R := fun _ _ events => Guarded isClient events) ?_
    fun _ handler _ h => post_ret (safe_markClosed h handler)
  refine post_loop (fun i handler events hopen h => ?_) answers h
  refine post_andThen (R := fun _ => Safe isClient) ?_ fun attempt _ _ h => ?_
  · refine post_within (((h.2 hopen).post_read i handler.readBufsiz).mono ?_ fun _ _ _ h => h)
    exact fun _ stream _ hs => @safe_of_secure _ _ { handler with stream := stream } hs
  · cases attempt <;> exact post_ret h

theorem Safe.post_write (h : Safe isClient handler events) (answers : Nat → Answers)
    (last : Answers) :
    Post events (handler.write answers last) (fun _ => Safe isClient) fun _ => Safe isClient := by
  refine post_catching (R := fun _ _ events => Guarded isClient events) ?_
    fun _ handler _ h => post_throws (safe_markClosed h handler)
  refine post_andThen (R := fun _ => Safe isClient) (post_within ?_) fun _ handler events h => ?_
  · let safe : TcpStream → List StreamEvent → Prop := fun stream events =>
      Guarded isClient events ∧ (stream.isOpen = true → stream.Secure isClient events)
    refine (post_drain (I := safe) (s := (handler.stream, handler.writeQueue))
      (E := fun _ _ => Guarded isClient) (fun i buf stream events hopen h => ?_) _ h).mono
        (fun _ _ _ h => h) fun _ _ _ h => h
    refine ((h.2 hopen).post_write i buf).mono (fun _ _ _ hs => ?_) fun _ _ _ h => h
    exact ⟨hs.2.2.1, fun _ => hs⟩
  · unfold writePending
    split
    · next hpending =>
      rw [Bool.and_eq_true] at hpending
      refine post_andThen (R := fun _ => Safe isClient) ?_ fun _ _ _ h => post_ret h
      refine post_within (((h.2 hpending.1).post_write last []).mono ?_ fun _ _ _ h => h)
      exact fun _ stream _ hs => @safe_of_secure _ _ { handler with stream := stream } hs
    · exact post_ret h

theorem Safe.step (h : Safe isClient handler events) (op : Op) :
    Safe isClient (step (handler, events) op).1 (step (handler, events) op).2 := by
  cases op with
  | read answers => exact (h.post_read answers).always
  | write answers last => exact (h.post_write answers last).always
  | close =>
      show Safe isClient handler.close events
      unfold close
      split
      · exact safe_markClosed h.1 handler
      · exact h
  | dequeue =>
      show Safe isClient handler.dequeue.2 events
      unfold dequeue
      split <;> exact h
  | enqueue buf => exact h

/-! ## Runs -/

/-- **A run** of a handler with TLS is safe. -/
theorem safe_run (isClient : Bool) (readBufsiz writeBufsiz : Nat) (ops : List Op) :
    Safe isClient (run ops (new (.secured isClient) readBufsiz writeBufsiz)).1
      (run ops (new (.secured isClient) readBufsiz writeBufsiz)).2 := by
  unfold run
  induction ops using List.reverseRecOn with
  | nil =>
      have hguarded : Guarded isClient [] := ⟨Run.preceded_nil _ _, fun _ => Run.preceded_nil _ _⟩
      exact safe_of_secure ⟨rfl, rfl, hguarded, .inl rfl⟩
  | append_singleton ops op ih =>
      rw [List.foldl_append]
      exact ih.step op

/-- **No application data before the handshake and the check of the peer**: in a run of a handler made
with an SSL context, every read and write of a `BIO` comes after a handshake that has reported
completion and, if there is a server name, after a `verify` that has returned. -/
theorem data_after_handshake (hasServerName : Bool) (readBufsiz writeBufsiz : Nat) (ops : List Op) :
    let handler := if hasServerName then client readBufsiz writeBufsiz
      else server readBufsiz writeBufsiz
    let events := (run ops handler).2
    Run.Preceded (fun e => isData e = true) (· = .handshake 1) events ∧
      (hasServerName = true →
        Run.Preceded (fun e => isData e = true) (· = .verify true) events) := by
  cases hasServerName with
  | true => exact (safe_run true readBufsiz writeBufsiz ops).1
  | false => exact (safe_run false readBufsiz writeBufsiz ops).1

end TcpSocketPollHandler

end SquawkBus.Io
