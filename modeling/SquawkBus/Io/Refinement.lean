import SquawkBus.Io.Handler
import SquawkBus.Io.PollHandlers

/-!
# The poller's view of a handler

`SocketHandler` is `TcpSocketPollHandler` with the stream left out: what the calls of the stream end
with is given from outside. Each `read` and each `write` of a `TcpSocketPollHandler` is a `read` or a
`write` of the `SocketHandler` that it is without its stream, for some such results.
-/

namespace SquawkBus.Io

open ByteQueue Call

namespace TcpStream

/-! ## What closes a stream -/

variable {h : List StreamEvent}

/-- The rule for `prepared` when what matters is whether the socket is open. -/
theorem post_prepared_isOpen {α : Type} {answers : Answers}
    {io : TcpStream → StreamCall (Attempt α)} {stream : TcpStream}
    (hio : ∀ s h', s.isOpen = stream.isOpen → Post h' (io s)
      (fun attempt t _ => attempt ≠ .eof → t.isOpen = stream.isOpen)
      fun e _ _ => e.isStdException = true) :
    Post h (prepared answers io stream)
      (fun attempt s _ => attempt ≠ .eof → s.isOpen = stream.isOpen)
      fun e _ _ => e.isStdException = true := by
  refine post_prepared_of_quiet (fun attempt s events _ hattempt hne => ?_) (fun _ _ _ _ hstd => hstd)
    fun s events _ hopen => hio s _ hopen
  rcases hattempt with rfl | ⟨-, hopen⟩
  · exact absurd rfl hne
  · exact hopen

/-- **A read** closes the socket only at the end of the stream, and throws a `std::exception`. -/
theorem post_read_isOpen (answers : Answers) (len : Nat) (stream : TcpStream) :
    Post h (read answers len stream) (fun attempt s _ => attempt ≠ .eof → s.isOpen = stream.isOpen)
      fun e _ _ => e.isStdException = true := by
  refine post_prepared_isOpen fun s h' hopen => ?_
  refine post_andThen (R := fun _ t _ => t.isOpen = stream.isOpen) ?_ fun data t h' ht => ?_
  · exact hopen
  split
  · split
    · exact post_ret fun _ => ht
    · split
      · refine (post_shutdownAttempt Bytes answers (by simp)).mono ?_ ?_
        · rintro attempt t' _ ⟨rfl | rfl, -, -, -, -, -, -, hopen'⟩ hne
          · exact absurd rfl hne
          · exact (hopen' rfl).trans ht
        · rintro e _ _ ⟨-, -, -, hstd⟩
          exact hstd
      · exact post_andThen ((post_handleClientFaulted t).mono (fun _ _ _ h => h)
          fun _ _ _ h => h.elim) fun _ _ _ _ => post_ret fun hne => absurd rfl hne
  · exact post_ret fun hne => absurd rfl hne
  · exact post_ret fun _ => ht

/-- **A write** does so too. -/
theorem post_write_isOpen (answers : Answers) (buf : Bytes) (stream : TcpStream) :
    Post h (write answers buf stream) (fun attempt s _ => attempt ≠ .eof → s.isOpen = stream.isOpen)
      fun e _ _ => e.isStdException = true := by
  refine post_prepared_isOpen fun s h' hopen => ?_
  refine post_andThen (R := fun _ t _ => t.isOpen = stream.isOpen) ?_ fun written t h' ht => ?_
  · exact hopen
  split
  · split
    · exact post_ret fun _ => ht
    · exact post_andThen ((post_handleClientFaulted _).mono (fun _ _ _ h => h)
        fun _ _ _ h => h.elim) fun _ _ _ _ => post_throws rfl
  · exact post_ret fun hne => absurd rfl hne
  · exact post_ret fun _ => ht

end TcpStream

namespace TcpSocketPollHandler

/-! ## The handler without its stream -/

/-- The handler without its stream. -/
def erase (handler : TcpSocketPollHandler) : SocketHandler := ⟨handler.isOpen, handler.writeQueue⟩

/-! ## Reading -/

/-- Where `read` leaves the handler when its loop is left somewhere. -/
def afterLoop (call : Call TcpSocketPollHandler StreamEvent Exn Bool) : TcpSocketPollHandler :=
  match call.result with
  | .ok _ => call.state
  | .error _ => call.state.markClosed

theorem state_read (answers : List Answers) (handler : TcpSocketPollHandler) :
    (handler.read answers).state = afterLoop (loop isOpen readBody answers handler) := by
  unfold read afterLoop catching
  cases (loop isOpen readBody answers handler).result <;> rfl

/-- The first round of `read` on an open socket. -/
theorem afterLoop_cons {handler : TcpSocketPollHandler} (hopen : handler.isOpen = true)
    (answer : Answers) (answers : List Answers) :
    let call := handler.stream.read answer handler.readBufsiz
    let next : TcpSocketPollHandler := { handler with stream := call.state }
    afterLoop (loop isOpen readBody (answer :: answers) handler) =
      match call.result with
      | .ok (.done buf) =>
          afterLoop (loop isOpen readBody answers { next with readQueue := next.readQueue ++ [buf] })
      | .ok _ => next
      | .error _ => next.markClosed := by
  intro call next
  rw [loop, if_pos hopen]
  unfold readBody
  cases hresult : call.result with
  | error e => simp [andThen, within, call, next, hresult, afterLoop]
  | ok attempt =>
      cases attempt <;> simp [andThen, within, call, next, hresult, afterLoop, ret]

/-- A read that leaves the queues as they were, and the socket open or not. -/
theorem read_nothing {handler : TcpSocketPollHandler} (next : TcpSocketPollHandler)
    (hopen : handler.isOpen = true) (hqueue : next.writeQueue = handler.writeQueue) :
    ∃ results, ReadResult.sigpipe ∉ results ∧ handler.erase.read results = (next.erase, []) := by
  have herase : handler.erase.isOpen = true := hopen
  cases hnext : next.isOpen with
  | true =>
      refine ⟨[.blocked], by simp, ?_⟩
      rw [SocketHandler.read, if_pos herase, erase, erase, hopen, hnext, hqueue]
  | false =>
      refine ⟨[.eof], by simp, ?_⟩
      rw [SocketHandler.read, if_pos herase, erase, erase, hnext, hqueue]

/-- **Every `read`** is one of the handler without its stream, which reads the same and meets no
signal. -/
theorem read_refines (answers : List Answers) (handler : TcpSocketPollHandler) :
    ∃ results bufs, ReadResult.sigpipe ∉ results ∧
      handler.erase.read results = ((handler.read answers).state.erase, bufs) ∧
        (handler.read answers).state.readQueue = handler.readQueue ++ bufs := by
  rw [state_read]
  induction answers generalizing handler with
  | nil => exact ⟨[], [], by simp, rfl, (List.append_nil _).symm⟩
  | cons answer answers ih =>
      cases hopen : handler.isOpen with
      | false =>
          refine ⟨[], [], by simp, ?_, ?_⟩
          · simp [loop, hopen, afterLoop, ret, SocketHandler.read]
          · simp [loop, hopen, afterLoop, ret]
      | true =>
          have hframe := TcpStream.post_read_isOpen (h := []) answer handler.readBufsiz handler.stream
          rw [afterLoop_cons hopen]
          have herase : handler.erase.isOpen = true := hopen
          split
          · next buf hdone =>
            have hkept : (handler.stream.read answer handler.readBufsiz).state.isOpen = handler.isOpen :=
              hframe.of_ok hdone (by simp)
            let next : TcpSocketPollHandler := { handler with
              stream := (handler.stream.read answer handler.readBufsiz).state
              readQueue := handler.readQueue ++ [buf] }
            have hsame : next.erase = handler.erase := congrArg (SocketHandler.mk · handler.writeQueue) hkept
            obtain ⟨results, bufs, hsignals, hread, hqueue⟩ := ih next
            rw [hsame] at hread
            refine ⟨.data buf :: results, buf :: bufs, by simpa using hsignals, ?_, ?_⟩
            · unfold SocketHandler.read
              rw [if_pos herase]
              simp only [hread]
              rfl
            · show (afterLoop (loop isOpen readBody answers next)).readQueue = _
              rw [hqueue]
              exact List.append_assoc handler.readQueue [buf] bufs
          · obtain ⟨results, hsignals, hread⟩ := read_nothing { handler with
              stream := (handler.stream.read answer handler.readBufsiz).state } hopen rfl
            exact ⟨results, [], hsignals, hread, (List.append_nil _).symm⟩
          · obtain ⟨results, hsignals, hread⟩ := read_nothing (markClosed { handler with
              stream := (handler.stream.read answer handler.readBufsiz).state }) hopen rfl
            exact ⟨results, [], hsignals, hread, (List.append_nil _).symm⟩

/-! ## Writing -/

/-- What the poller sees of a call that writes. -/
def seen (call : Call TcpSocketPollHandler StreamEvent Exn Bool) : SocketHandler × Option Fault :=
  match call.result with
  | .ok _ => (call.state.erase, none)
  | .error _ => (call.state.markClosed.erase, some (.thrown (.runtimeError "failed to write")))

/-- A round in which the stream takes bytes, as the poller sees it. -/
theorem writeLoop_written (buf : Bytes) (offset n : Nat) (queue : ByteQueue UInt8)
    (results : List WriteResult) :
    SocketHandler.writeLoop ⟨true, (buf, offset) :: queue⟩ (.written n :: results) =
      SocketHandler.writeLoop ⟨true, advance n ((buf, offset) :: queue)⟩ results := by
  rw [advance_cons]
  show (if offset + n = buf.length then _ else _) = _
  split <;> rfl

/-- A loop that leaves the queue as it was, and the socket open or not. -/
theorem writeLoop_nothing (isOpen : Bool) (entry : Bytes × Nat) (queue : ByteQueue UInt8) :
    ∃ results, SocketHandler.writeLoop ⟨true, entry :: queue⟩ results =
      (⟨isOpen, entry :: queue⟩, none) := by
  cases isOpen with
  | true => exact ⟨[.blocked], rfl⟩
  | false => exact ⟨[.eof], rfl⟩

/-- **Every loop of `write`** is one of the handler without its stream. -/
theorem writeLoop_refines (answers : List Answers) (handler : TcpSocketPollHandler) :
    ∃ results, handler.erase.writeLoop results = seen (handler.writeLoop answers) := by
  obtain ⟨stream, readQueue, queue, readBufsiz, writeBufsiz⟩ := handler
  induction answers generalizing stream queue with
  | nil => exact ⟨[], rfl⟩
  | cons answer answers ih =>
      cases hopen : stream.isOpen with
      | false =>
          refine ⟨[], ?_⟩
          simp [SocketHandler.writeLoop, seen, writeLoop, within, drain, loop, ready, sink, hopen, ret]
      | true =>
          cases queue with
          | nil =>
              refine ⟨[], ?_⟩
              simp [SocketHandler.writeLoop, seen, writeLoop, within, drain, loop, ready, ret]
          | cons entry queue =>
              obtain ⟨buf, offset⟩ := entry
              let span := (buf.drop offset).take (chunk writeBufsiz buf.length offset)
              let call := stream.write answer span
              have hframe := TcpStream.post_write_isOpen (h := []) answer span stream
              let handler : TcpSocketPollHandler :=
                ⟨stream, readQueue, (buf, offset) :: queue, readBufsiz, writeBufsiz⟩
              have herase : handler.erase = ⟨true, (buf, offset) :: queue⟩ :=
                congrArg (SocketHandler.mk · ((buf, offset) :: queue)) hopen
              have hloop : handler.writeLoop (answer :: answers) =
                  (drain sink (chunk writeBufsiz) (answer :: answers) (stream, (buf, offset) :: queue)).within
                    fun s => { handler with stream := s.1, writeQueue := s.2 } := rfl
              rw [herase, hloop]
              cases hresult : call.result with
              | error e =>
                  have hcall : call = ⟨call.state, call.events, .error e⟩ := by rw [← hresult]
                  rw [drain_of_error sink (chunk writeBufsiz) hopen hcall]
                  exact ⟨[.failed], rfl⟩
              | ok attempt =>
                  have hcall : call = ⟨call.state, call.events, .ok attempt⟩ := by rw [← hresult]
                  cases attempt with
                  | done n =>
                      have hkept : call.state.isOpen = true := (hframe.of_ok hresult (by simp)).trans hopen
                      rw [drain_of_done sink (chunk writeBufsiz) hopen hcall]
                      obtain ⟨results, hresults⟩ := ih call.state (advance n ((buf, offset) :: queue))
                      refine ⟨.written n :: results, ?_⟩
                      have hnext : (⟨call.state, readQueue, advance n ((buf, offset) :: queue),
                          readBufsiz, writeBufsiz⟩ : TcpSocketPollHandler).erase =
                          ⟨true, advance n ((buf, offset) :: queue)⟩ :=
                        congrArg (SocketHandler.mk · (advance n ((buf, offset) :: queue))) hkept
                      rw [hnext] at hresults
                      rw [writeLoop_written]
                      exact hresults
                  | eof =>
                      rw [drain_of_stop sink (chunk writeBufsiz) hopen hcall (.inl rfl)]
                      exact writeLoop_nothing call.state.isOpen (buf, offset) queue
                  | blocked =>
                      rw [drain_of_stop sink (chunk writeBufsiz) hopen hcall (.inr rfl)]
                      exact writeLoop_nothing call.state.isOpen (buf, offset) queue

theorem writePending_refines (last : Answers) (handler : TcpSocketPollHandler) :
    ∃ pending, handler.erase.write [] pending = seen (handler.writePending last) := by
  unfold writePending
  split
  · next hpending =>
    rw [Bool.and_eq_true] at hpending
    have hopen : handler.stream.isOpen = true := hpending.1
    let call := handler.stream.write last []
    cases hresult : call.result with
    | error e =>
        refine ⟨some .failed, ?_⟩
        simp [SocketHandler.write, SocketHandler.writeLoop, hopen, seen, andThen, within, call, hresult,
          markClosed, erase, isOpen]
    | ok attempt =>
        cases hclosed : call.state.isOpen with
        | true =>
            refine ⟨none, ?_⟩
            simp [SocketHandler.write, SocketHandler.writeLoop, hopen, seen, andThen, within, call, ret,
              hresult, erase, isOpen, hclosed]
        | false =>
            refine ⟨some .eof, ?_⟩
            simp [SocketHandler.write, SocketHandler.writeLoop, hopen, seen, andThen, within, call, ret,
              hresult, erase, isOpen, hclosed]
  · refine ⟨none, ?_⟩
    simp [SocketHandler.write, SocketHandler.writeLoop, seen, ret]

/-- **Every `write`** is one of the handler without its stream. -/
theorem write_refines (answers : Nat → Answers) (last : Answers) (handler : TcpSocketPollHandler) :
    ∃ results pending, handler.erase.write results pending = seen (handler.write answers last) := by
  obtain ⟨results, hresults⟩ :=
    writeLoop_refines (firstAnswers answers ((waiting handler.writeQueue).length + 1)) handler
  let call := handler.writeLoop (firstAnswers answers ((waiting handler.writeQueue).length + 1))
  have hwrite : handler.write answers last = (call.andThen fun _ handler =>
      handler.writePending last).catching fun e handler => .throws e handler.markClosed := rfl
  rw [hwrite]
  refine ⟨results, ?_⟩
  unfold SocketHandler.write
  rw [hresults]
  cases hresult : call.result with
  | error e =>
      have hseen : seen call =
          (call.state.markClosed.erase, some (.thrown (.runtimeError "failed to write"))) := by
        rw [seen, hresult]
      refine ⟨none, ?_⟩
      rw [hseen, andThen_of_error hresult]
      rfl
  | ok going =>
      have hseen : seen call = (call.state.erase, none) := by rw [seen, hresult]
      obtain ⟨pending, hpending⟩ := writePending_refines last call.state
      refine ⟨pending, ?_⟩
      rw [hseen, andThen_of_ok hresult]
      show call.state.erase.write [] pending = _
      rw [hpending]
      unfold seen catching
      cases (call.state.writePending last).result <;> rfl

/-- What `write` throws is a `std::exception`, which the poller catches. -/
theorem isStdException_of_thrown {answers : Nat → Answers} {last : Answers}
    {handler : TcpSocketPollHandler} {e : Exn} (h : (handler.write answers last).result = .error e) :
    e.isStdException = true := by
  have hpost : Post [] (handler.write answers last) (fun _ _ _ => True)
      fun e _ _ => e.isStdException = true := by
    refine post_catching (R := fun (e : Exn) _ _ => e.isStdException = true) ?_ fun _ _ _ h => post_throws h
    refine post_andThen (R := fun _ _ _ => True) (post_within ?_) fun _ handler _ _ => ?_
    · refine post_drain (I := fun _ _ => True) (E := fun (e : Exn) _ _ => e.isStdException = true)
        (fun i buf stream _ _ _ => ?_) _ trivial
      exact (TcpStream.post_write_isOpen i buf stream).mono (fun _ _ _ _ => trivial) fun _ _ _ h => h
    · unfold writePending
      split
      · refine post_andThen (R := fun _ _ _ => True) (post_within ?_) fun _ _ _ _ => post_ret trivial
        exact (TcpStream.post_write_isOpen last [] handler.stream).mono (fun _ _ _ _ => trivial)
          fun _ _ _ h => h
      · exact post_ret trivial
  exact hpost.of_error h

end TcpSocketPollHandler

end SquawkBus.Io
