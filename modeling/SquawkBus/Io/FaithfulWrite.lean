import Mathlib.Data.List.Induction
import SquawkBus.Io.PollHandlers

/-!
# The write queue is a faithful stream of bytes

What a stream has taken, followed by what waits in the write queue, is what has been enqueued: between
the calls of the poller and wherever the loop of `write` is, whatever part of a chunk the stream takes,
and when it is at its end, would block or throws.
-/

namespace SquawkBus.Io

open ByteQueue

/-- A chunk does not reach beyond the end of its buffer. -/
theorem add_chunk_le (writeBufsiz : Nat) {size offset : Nat} (h : offset ≤ size) :
    offset + chunk writeBufsiz size offset ≤ size := by
  unfold chunk sizeSub
  rw [if_pos h]
  omega

theorem firstAnswers_of_le {α : Type} (answers : Nat → α) {m n : Nat} (h : m ≤ n) :
    ∃ rest, firstAnswers answers n = firstAnswers answers m ++ rest := by
  obtain ⟨k, rfl⟩ := Nat.exists_eq_add_of_le h
  unfold firstAnswers
  rw [List.range_add, List.map_append]
  exact ⟨_, rfl⟩

/-! ## Queues -/

section Queues

variable {σ ι ε χ : Type} {sink : Sink σ ι ε χ UInt8} {taken : ε → Bytes} {writeBufsiz : Nat}
  {events : List ε} {enqueued : Bytes} {s : σ × ByteQueue UInt8}

/-- **The write queue is faithful** after some events, when some bytes have been enqueued: the bytes
taken and those that wait are the bytes enqueued, now and after any number of rounds of a loop of
`write`; no round offers bytes beyond the end of a buffer; and the loop ends after as many rounds as
bytes wait, whatever further answers there are. -/
structure FaithfulWrite (sink : Sink σ ι ε χ UInt8) (taken : ε → Bytes) (writeBufsiz : Nat)
    (events : List ε) (enqueued : Bytes) (s : σ × ByteQueue UInt8) : Prop where
  now : events.flatMap taken ++ waiting s.2 = enqueued
  during : ∀ (answers : Nat → ι) n,
    let call := drain sink (chunk writeBufsiz) (firstAnswers answers n) s
    (events ++ call.events).flatMap taken ++ waiting call.state.2 = enqueued
  inBounds : ∀ (answers : Nat → ι) n buf offset queue,
    (drain sink (chunk writeBufsiz) (firstAnswers answers n) s).state.2 = (buf, offset) :: queue →
      offset + chunk writeBufsiz buf.length offset ≤ buf.length
  ends : ∀ (answers : Nat → ι) n, (waiting s.2).length < n →
    let call := drain sink (chunk writeBufsiz) (firstAnswers answers n) s
    call.goesOn (ready sink) = false ∧
      call = drain sink (chunk writeBufsiz)
        (firstAnswers answers ((waiting s.2).length + 1)) s

/-- What the calls of a handler keep: the bytes sent and the bytes that wait are those enqueued, and no
more of a buffer is gone than there was of it. -/
def Kept (taken : ε → Bytes) (enqueued : Bytes) (queue : ByteQueue UInt8) (events : List ε) : Prop :=
  events.flatMap taken ++ waiting queue = enqueued ∧ InBounds queue

theorem Kept.push {queue : ByteQueue UInt8} (h : Kept taken enqueued queue events) (buf : Bytes) :
    Kept taken (enqueued ++ buf) (queue ++ [(buf, 0)]) events := by
  refine ⟨?_, h.2.push buf⟩
  rw [waiting_push, ← List.append_assoc, h.1]

/-- Events without bytes change nothing. -/
theorem Kept.append {queue : ByteQueue UInt8} (h : Kept taken enqueued queue events) {more : List ε}
    (hmore : more.flatMap taken = []) : Kept taken enqueued queue (events ++ more) := by
  refine ⟨?_, h.2⟩
  rw [List.flatMap_append, hmore, List.append_nil, h.1]

/-- The loop of `write` keeps them. -/
theorem Kept.drain (hsink : sink.Faithful taken) (h : Kept taken enqueued s.2 events) (is : List ι) :
    Kept taken enqueued (drain sink (chunk writeBufsiz) is s).state.2
      (events ++ (drain sink (chunk writeBufsiz) is s).events) := by
  refine ⟨?_, drain_invariant hsink (P := InBounds) (fun _ _ _ _ h hn => h.advance hn) is h.2⟩
  rw [List.flatMap_append, List.append_assoc, drain_keeps hsink]
  exact h.1

theorem Kept.faithfulWrite (hsink : sink.Faithful taken) (h : Kept taken enqueued s.2 events)
    (writeBufsiz : Nat) : FaithfulWrite sink taken writeBufsiz events enqueued s where
  now := h.1
  during := fun answers n => (h.drain hsink (firstAnswers answers n)).1
  inBounds := by
    intro answers n buf offset queue hqueue
    have hkept : InBounds (ByteQueue.drain sink (chunk writeBufsiz) (firstAnswers answers n) s).state.2 :=
      (h.drain hsink (firstAnswers answers n)).2
    rw [hqueue] at hkept
    exact add_chunk_le writeBufsiz (hkept (buf, offset) List.mem_cons_self)
  ends := by
    intro answers n hn call
    have hend : ∀ m, (waiting s.2).length < m →
        (ByteQueue.drain sink (chunk writeBufsiz) (firstAnswers answers m) s).goesOn (ready sink) =
          false :=
      fun m hm => goesOn_drain hsink (by simpa [firstAnswers] using hm)
    obtain ⟨rest, hrest⟩ := firstAnswers_of_le answers (Nat.succ_le_of_lt hn)
    refine ⟨hend n hn, ?_⟩
    show ByteQueue.drain _ _ (firstAnswers answers n) s = _
    rw [hrest]
    exact Call.loop_append_of_end (hend _ (Nat.lt_succ_self _)) rest

end Queues

/-! ## Sockets -/

namespace TcpStream

open Call StreamEvent

variable {h more : List StreamEvent} {sent : Bytes}

/-- What moves no data sends nothing. -/
theorem taken_append (hsent : h.flatMap taken = sent) (hmore : Quiet more) :
    (h ++ more).flatMap taken = sent := by
  rw [List.flatMap_append, hmore.taken_eq, List.append_nil, hsent]

/-- **A read** sends nothing. -/
theorem post_read (answers : Answers) (len : Nat) (hsent : h.flatMap taken = sent)
    (stream : TcpStream) :
    Post h (read answers len stream) (fun _ _ h' => h'.flatMap taken = sent)
      fun _ _ h' => h'.flatMap taken = sent := by
  refine post_prepared_of_quiet (fun _ _ _ hquiet _ => taken_append hsent hquiet)
    (fun _ _ _ hquiet _ => taken_append hsent hquiet) fun s events hquiet _ => ?_
  refine post_andThen (R := fun _ _ h' => h'.flatMap taken = sent) ?_ fun data t h' hh => ?_
  · show (h ++ events ++ [StreamEvent.bioRead len _]).flatMap taken = sent
    rw [List.flatMap_append, taken_append hsent hquiet]
    exact List.append_nil sent
  · split
    · split
      · exact post_ret hh
      · split
        · refine (post_shutdownAttempt Bytes answers (by simp)).mono ?_ ?_
          · rintro attempt _ _ ⟨-, more, rfl, hmore, -⟩
            exact taken_append hh hmore
          · rintro e _ _ ⟨more, rfl, hmore, -⟩
            exact taken_append hh hmore
        · refine post_andThen ((post_handleClientFaulted _).mono (fun _ _ _ h => h)
            fun _ _ _ h => h.elim) ?_
          rintro - _ _ ⟨-, more, rfl, hmore⟩
          exact post_ret (taken_append hh hmore)
    · exact post_ret hh
    · exact post_ret hh

/-- **What a write sends** is the first of the bytes offered, as many as it reports; a write that sends
nothing is not reported as done. -/
theorem post_write (answers : Answers) (buf : Bytes) (stream : TcpStream) :
    Post [] (write answers buf stream)
      (fun attempt _ h => h.flatMap taken = buf.take (moved (.ok attempt : Except Exn _)) ∧
        ∀ n, attempt = .done n → 0 < n ∧ n ≤ buf.length)
      (fun _ _ h => h.flatMap taken = []) := by
  refine post_prepared_of_quiet (fun attempt _ events hquiet hattempt => ?_)
    (fun _ _ _ hquiet _ => hquiet.taken_eq) fun s events hquiet _ => ?_
  · have hnothing : ([] ++ events).flatMap taken = [] := hquiet.taken_eq
    rcases hattempt with rfl | ⟨rfl, -⟩
    · exact ⟨hnothing, by simp⟩
    · exact ⟨hnothing, by simp⟩
  · refine post_andThen (R := fun written _ h' => written = (answers.write buf).written ∧
      h'.flatMap taken = taken (.bioWrite buf written)) ?_ ?_
    · show _ ∧ ([] ++ events ++ [StreamEvent.bioWrite buf _]).flatMap taken = _
      rw [List.nil_append, List.flatMap_append, hquiet.taken_eq, List.flatMap_singleton]
      exact ⟨rfl, rfl⟩
    · rintro written t h' ⟨hwritten, htaken⟩
      cases written with
      | none =>
          simp only
          split
          · exact post_ret ⟨htaken, by simp⟩
          · refine post_andThen ((post_handleClientFaulted _).mono (fun _ _ _ h => h)
              fun _ _ _ h => h.elim) ?_
            rintro - _ _ ⟨-, more, rfl, hmore⟩
            exact post_throws (taken_append htaken hmore)
      | some n =>
          cases n with
          | zero => exact post_ret ⟨by rw [htaken]; rfl, by simp⟩
          | succ n =>
              refine post_ret ⟨htaken, ?_⟩
              rintro _ ⟨⟩
              exact ⟨Nat.succ_pos n, answers.le_of_write buf _ hwritten.symm⟩

end TcpStream

namespace TcpSocketPollHandler

open Call

theorem sink_faithful : sink.Faithful StreamEvent.taken :=
  Sink.faithful_of_post TcpStream.post_write

/-! ### The invariant -/

/-- What is kept of a handler by all its calls; its chunks stay as large as they were. -/
def Faithful (writeBufsiz : Nat) (enqueued : Bytes) (handler : TcpSocketPollHandler)
    (events : List StreamEvent) : Prop :=
  Kept StreamEvent.taken enqueued handler.writeQueue events ∧ handler.writeBufsiz = writeBufsiz

variable {writeBufsiz : Nat} {enqueued : Bytes} {handler : TcpSocketPollHandler}
  {events : List StreamEvent}

theorem Faithful.post_read (h : Faithful writeBufsiz enqueued handler events)
    (answers : List Answers) :
    Post events (handler.read answers) (fun _ => Faithful writeBufsiz enqueued) fun _ =>
      Faithful writeBufsiz enqueued := by
  refine post_andThen (R := fun _ => Faithful writeBufsiz enqueued) ?_ fun _ _ _ h => post_ret h
  refine post_catching (R := fun _ => Faithful writeBufsiz enqueued) ?_ fun _ _ _ h => post_ret h
  refine post_loop (fun i handler events _ h => ?_) answers h
  refine post_andThen (R := fun _ => Faithful writeBufsiz enqueued) (post_within ?_)
    fun attempt _ _ h => ?_
  · refine (TcpStream.post_read i handler.readBufsiz rfl handler.stream).mono ?_ ?_
    · intro _ _ events' hsent
      exact ⟨⟨by rw [hsent]; exact h.1.1, h.1.2⟩, h.2⟩
    · intro _ _ events' hsent
      exact ⟨⟨by rw [hsent]; exact h.1.1, h.1.2⟩, h.2⟩
  · cases attempt <;> exact post_ret h

theorem Faithful.post_write (h : Faithful writeBufsiz enqueued handler events)
    (answers : Nat → Answers) (last : Answers) :
    Post events (handler.write answers last) (fun _ => Faithful writeBufsiz enqueued) fun _ =>
      Faithful writeBufsiz enqueued := by
  refine post_catching (R := fun _ => Faithful writeBufsiz enqueued) ?_ fun _ _ _ h => post_throws h
  refine post_andThen (R := fun _ => Faithful writeBufsiz enqueued) (post_within ?_)
    fun _ handler events h => ?_
  · exact post_of_always ⟨h.1.drain sink_faithful _, h.2⟩
  · unfold writePending
    split
    · refine post_andThen (R := fun _ => Faithful writeBufsiz enqueued) (post_within ?_)
        fun _ _ _ h => post_ret h
      -- Nothing is offered, so nothing is sent.
      have hnothing := sink_faithful.taken_eq last [] handler.stream
      rw [List.take_nil] at hnothing
      exact post_of_always ⟨h.1.append hnothing, h.2⟩
    · exact post_ret h

/-! ### Runs -/

/-- **One operation** keeps a faithful queue, with what it enqueues at the end. -/
theorem Faithful.step (h : Faithful writeBufsiz enqueued handler events) (op : Op) :
    Faithful writeBufsiz (enqueued ++ op.enqueued) (step (handler, events) op).1
      (step (handler, events) op).2 := by
  cases op with
  | read answers =>
      show Faithful writeBufsiz (enqueued ++ []) _ _
      rw [List.append_nil]
      exact (h.post_read answers).always
  | write answers last =>
      show Faithful writeBufsiz (enqueued ++ []) _ _
      rw [List.append_nil]
      exact (h.post_write answers last).always
  | close =>
      show Faithful writeBufsiz (enqueued ++ []) handler.close events
      rw [List.append_nil]
      unfold close
      split <;> exact h
  | dequeue =>
      show Faithful writeBufsiz (enqueued ++ []) handler.dequeue.2 events
      rw [List.append_nil]
      unfold dequeue
      split <;> exact h
  | enqueue buf => exact ⟨h.1.push buf, h.2⟩

/-- **A run** keeps the queue faithful. -/
theorem faithful_run (stream : TcpStream) (readBufsiz writeBufsiz : Nat) (ops : List Op) :
    Faithful writeBufsiz (ops.flatMap Op.enqueued) (run ops (new stream readBufsiz writeBufsiz)).1
      (run ops (new stream readBufsiz writeBufsiz)).2 := by
  unfold run
  induction ops using List.reverseRecOn with
  | nil => exact ⟨⟨rfl, by simp [new, InBounds]⟩, rfl⟩
  | append_singleton ops op ih =>
      rw [List.foldl_append, List.flatMap_append, List.flatMap_singleton]
      exact ih.step op

end TcpSocketPollHandler

/-! ## Files -/

open Call in
/-- What a write to a file sends. -/
theorem FileStream.post_write (answer : FileAnswer) (buf : Bytes) (stream : FileStream) :
    Post [] (stream.write answer buf)
      (fun attempt _ h => h.flatMap FileEvent.taken =
          buf.take (moved (.ok attempt : Except Exn _)) ∧
        ∀ n, attempt = .done n → 0 < n ∧ n ≤ buf.length)
      (fun _ _ h => h.flatMap FileEvent.taken = []) := by
  unfold FileStream.write
  refine post_andThen (R := fun result _ h => result = answer.write buf ∧
    h.flatMap FileEvent.taken = FileEvent.taken ⟨buf, result⟩) ?_ ?_
  · exact ⟨rfl, by simp⟩
  · rintro result t h ⟨hresult, htaken⟩
    cases result with
    | error errno =>
        simp only
        split
        · exact post_ret ⟨htaken, by simp⟩
        · exact post_throws htaken
    | ok n =>
        cases n with
        | zero => exact post_ret ⟨by rw [htaken]; rfl, by simp⟩
        | succ n =>
            refine post_ret ⟨htaken, ?_⟩
            rintro _ ⟨⟩
            exact ⟨Nat.succ_pos n, answer.le_of_write buf _ hresult.symm⟩

namespace FilePollHandler

open Call

theorem sink_faithful : sink.Faithful FileEvent.taken :=
  Sink.faithful_of_post FileStream.post_write

/-! ### The invariant -/

def Faithful (writeBufsiz : Nat) (enqueued : Bytes) (handler : FilePollHandler)
    (events : List FileEvent) : Prop :=
  Kept FileEvent.taken enqueued handler.writeQueue events ∧ handler.writeBufsiz = writeBufsiz

variable {writeBufsiz : Nat} {enqueued : Bytes} {handler : FilePollHandler} {events : List FileEvent}

theorem Faithful.post_write (h : Faithful writeBufsiz enqueued handler events)
    (answers : Nat → FileAnswer) :
    Post events (handler.write answers) (fun _ => Faithful writeBufsiz enqueued) fun _ =>
      Faithful writeBufsiz enqueued := by
  refine post_andThen (R := fun _ => Faithful writeBufsiz enqueued) ?_ fun _ _ _ h => post_ret h
  refine post_catching (R := fun _ => Faithful writeBufsiz enqueued) (post_within ?_)
    fun _ _ _ h => post_throws h
  exact post_of_always ⟨h.1.drain sink_faithful _, h.2⟩

theorem Faithful.step (h : Faithful writeBufsiz enqueued handler events) (op : Op) :
    Faithful writeBufsiz (enqueued ++ op.enqueued) (step op handler).state
      (events ++ (step op handler).events) := by
  cases op with
  | write answers =>
      show Faithful writeBufsiz (enqueued ++ []) _ _
      rw [List.append_nil]
      exact (h.post_write answers).always
  | enqueue buf =>
      show Faithful writeBufsiz _ _ (events ++ [])
      rw [List.append_nil]
      exact ⟨h.1.push buf, h.2⟩

/-- **A run** keeps the queue faithful, up to the operation that ends the process if one does. -/
theorem Faithful.run (h : Faithful writeBufsiz enqueued handler events) (ops : List Op) :
    ∃ executed, executed <+: ops ∧ ((run ops handler).fault = none → executed = ops) ∧
      Faithful writeBufsiz (enqueued ++ executed.flatMap Op.enqueued) (run ops handler).state
        (events ++ (run ops handler).events) := by
  induction ops generalizing enqueued handler events with
  | nil =>
      refine ⟨[], List.nil_prefix, fun _ => rfl, ?_⟩
      show Faithful writeBufsiz (enqueued ++ []) handler (events ++ [])
      rw [List.append_nil, List.append_nil]
      exact h
  | cons op ops ih =>
      have hstep := h.step op
      have hrun : FilePollHandler.run (op :: ops) handler =
          (FilePollHandler.step op handler).andThen (FilePollHandler.run ops) := rfl
      cases hfault : (FilePollHandler.step op handler).fault with
      | some fault =>
          rw [hrun, Outcome.andThen_of_fault hfault]
          refine ⟨[op], by simp, fun hnone => ?_, ?_⟩
          · rw [hfault] at hnone
            cases hnone
          · rw [List.flatMap_singleton]
            exact hstep
      | none =>
          obtain ⟨executed, hprefix, hall, hfaithful⟩ := ih hstep
          rw [hrun, Outcome.andThen_of_ok hfault]
          refine ⟨op :: executed, List.cons_prefix_cons.mpr ⟨rfl, hprefix⟩, fun hnone => ?_, ?_⟩
          · rw [hall hnone]
          · rw [List.flatMap_cons, ← List.append_assoc]
            simpa only [List.append_assoc] using hfaithful

end FilePollHandler

/-! ## Both -/

/-- **The write queue is a faithful stream of bytes**: in every run of a `TcpSocketPollHandler`, on
any stream, and of a `FilePollHandler`, whatever the chunks and the answers are. -/
theorem writeQueue_faithful :
    (∀ (stream : TcpStream) (readBufsiz writeBufsiz : Nat) (ops : List TcpSocketPollHandler.Op),
      let s := TcpSocketPollHandler.run ops (.new stream readBufsiz writeBufsiz)
      FaithfulWrite TcpSocketPollHandler.sink StreamEvent.taken writeBufsiz s.2
        (ops.flatMap TcpSocketPollHandler.Op.enqueued) (s.1.stream, s.1.writeQueue)) ∧
    ∀ (writeBufsiz : Nat) (ops : List FilePollHandler.Op),
      let o := FilePollHandler.run ops (.new writeBufsiz)
      ∃ executed, executed <+: ops ∧ (o.fault = none → executed = ops) ∧
        FaithfulWrite FilePollHandler.sink FileEvent.taken writeBufsiz o.events
          (executed.flatMap FilePollHandler.Op.enqueued) (o.state.stream, o.state.writeQueue) := by
  constructor
  · intro stream readBufsiz writeBufsiz ops s
    have hrun := TcpSocketPollHandler.faithful_run stream readBufsiz writeBufsiz ops
    exact hrun.1.faithfulWrite TcpSocketPollHandler.sink_faithful writeBufsiz
  · intro writeBufsiz ops o
    have hnew : FilePollHandler.Faithful writeBufsiz [] (.new writeBufsiz) [] :=
      ⟨⟨rfl, by simp [FilePollHandler.new, InBounds]⟩, rfl⟩
    obtain ⟨executed, hprefix, hall, hkept, -⟩ := hnew.run ops
    exact ⟨executed, hprefix, hall,
      hkept.faithfulWrite FilePollHandler.sink_faithful writeBufsiz⟩

end SquawkBus.Io
