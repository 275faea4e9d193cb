import SquawkBus.Io.FaithfulWrite

/-!
# A write that would block

A plain connection whose `write` would block loses its socket: the `BIO` then wants to write, `write`
makes the empty write meant for TLS, and the zero bytes that this reports are taken for the end of the
socket. It keeps the socket when the stream takes everything that waits.
-/

namespace SquawkBus.Io

open ByteQueue Call

/-! ## Answers on a connection in order -/

/-- What is assumed of OpenSSL when a plain socket has no fault: a write of bytes takes some of them or
would block, and `BIO_should_write` holds after it when it would block; a write of no bytes reports
zero. -/
structure Answers.Unfaulted (answers : Answers) : Prop where
  done : ∀ buf n, buf ≠ [] → (answers.write buf).written = some n →
    0 < n ∧ (answers.write buf).shouldWrite = false
  blocked : ∀ buf, buf ≠ [] → (answers.write buf).written = none →
    (answers.write buf).shouldRetry = true ∧ (answers.write buf).shouldWrite = true
  empty : (answers.write []).written = some 0

/-- Only a write of no bytes reports zero of them. -/
theorem Answers.Unfaulted.ne_nil {answers : Answers} (h : answers.Unfaulted) {buf : Bytes}
    (hwritten : (answers.write buf).written ≠ some 0) : buf ≠ [] := by
  rintro rfl
  exact hwritten h.empty

/-- A plain socket which takes whatever it is given, or would block. -/
def Answers.plainSocket (full : Bool) : Answers where
  handshake := (1, .none)
  verifyResult := 0
  verifyErrorString := ""
  hasCertificate := false
  shutdown := (1, .none)
  read _ := ⟨none, true, false⟩
  write buf := if full && buf ≠ [] then ⟨none, true, true⟩ else ⟨some buf.length, false, false⟩
  error := .none
  length_le_of_read := by
    intro len buf h
    cases h
  le_of_write := by
    intro buf n h
    cases hfull : full && buf ≠ [] with
    | true => rw [if_pos hfull] at h; cases h
    | false => rw [if_neg (by rw [hfull]; exact Bool.false_ne_true)] at h; cases h; exact Nat.le_refl _

theorem Answers.unfaulted_plainSocket (full : Bool) : (Answers.plainSocket full).Unfaulted where
  done := by
    intro buf n hbuf h
    cases full with
    | true => simp [plainSocket, hbuf] at h
    | false =>
        cases h
        exact ⟨List.length_pos_of_ne_nil hbuf, rfl⟩
  blocked := by
    intro buf hbuf h
    cases full with
    | true => simp [plainSocket, hbuf]
    | false => cases h
  empty := by cases full <;> rfl

/-! ## Answers that take everything -/

/-- The stream takes everything that waits, some bytes of each chunk it is offered, before a write would
block. -/
def AcceptsAll (writeBufsiz : Nat) : List Answers → ByteQueue UInt8 → Prop
  | _, [] => True
  | [], _ :: _ => False
  | answer :: answers, (buf, offset) :: queue =>
      match (answer.write ((buf.drop offset).take (chunk writeBufsiz buf.length offset))).written with
      | some (n + 1) => AcceptsAll writeBufsiz answers (advance (n + 1) ((buf, offset) :: queue))
      | _ => False

theorem AcceptsAll.cons_iff {writeBufsiz : Nat} {answer : Answers} {answers : List Answers}
    {buf : Bytes} {offset : Nat} {queue : ByteQueue UInt8} :
    AcceptsAll writeBufsiz (answer :: answers) ((buf, offset) :: queue) ↔
      ∃ n, (answer.write ((buf.drop offset).take (chunk writeBufsiz buf.length offset))).written =
          some (n + 1) ∧
        AcceptsAll writeBufsiz answers (advance (n + 1) ((buf, offset) :: queue)) := by
  rw [AcceptsAll]
  split
  · next n hwritten =>
    rw [hwritten]
    refine ⟨fun h => ⟨n, rfl, h⟩, fun h => ?_⟩
    obtain ⟨m, hm, h⟩ := h
    cases hm
    exact h
  · next hnone =>
    refine ⟨False.elim, fun h => ?_⟩
    obtain ⟨n, hwritten, -⟩ := h
    exact hnone n hwritten

/-- Further answers do not matter to what has been taken. -/
theorem AcceptsAll.append {writeBufsiz : Nat} {answers : List Answers} {queue : ByteQueue UInt8}
    (h : AcceptsAll writeBufsiz answers queue) (more : List Answers) :
    AcceptsAll writeBufsiz (answers ++ more) queue := by
  induction answers generalizing queue with
  | nil =>
      cases queue with
      | nil => cases more <;> exact trivial
      | cons entry queue => exact absurd h id
  | cons answer answers ih =>
      cases queue with
      | nil => exact trivial
      | cons entry queue =>
          obtain ⟨buf, offset⟩ := entry
          obtain ⟨n, hwritten, hrest⟩ := AcceptsAll.cons_iff.mp h
          exact AcceptsAll.cons_iff.mpr ⟨n, hwritten, ih hrest⟩

namespace TcpStream

/-! ## Streams without TLS -/

/-- A stream without TLS, whose state never changes. -/
def Plain (stream : TcpStream) : Prop := stream.ssl = false ∧ stream.state = .start

variable {answers : Answers} {stream : TcpStream}

/-- A plain stream goes to the `BIO` at once. -/
theorem Plain.prepared_eq {α : Type} (h : stream.Plain) (io : TcpStream → StreamCall (Attempt α)) :
    prepared answers io stream = io stream := by
  unfold prepared
  rw [if_neg (by simp [h.2]), ret_andThen]
  show (if stream.state = .shutdown then _ else _) = _
  rw [if_neg (by simp [h.2])]

/-- **The three ways a write to a plain stream ends** without a fault. -/
theorem Plain.write_cases (h : stream.Plain) (hanswers : answers.Unfaulted) (buf : Bytes) :
    (∃ n, (answers.write buf).written = some (n + 1) ∧ stream.write answers buf =
      ⟨{ stream with shouldWrite := false }, [.bioWrite buf (some (n + 1))], .ok (.done (n + 1))⟩) ∨
    ((answers.write buf).written = none ∧ stream.write answers buf =
      ⟨{ stream with shouldWrite := true }, [.bioWrite buf none], .ok .blocked⟩) ∨
    ((answers.write buf).written = some 0 ∧ stream.write answers buf =
      ⟨{ stream with shouldWrite := (answers.write buf).shouldWrite, isOpen := false },
        [.bioWrite buf (some 0)], .ok .eof⟩) := by
  unfold write
  rw [h.prepared_eq]
  unfold bioWrite
  cases hwritten : (answers.write buf).written with
  | none =>
      have hbuf : buf ≠ [] := hanswers.ne_nil (by simp [hwritten])
      obtain ⟨hretry, hshould⟩ := hanswers.blocked buf hbuf hwritten
      refine .inr (.inl ⟨rfl, ?_⟩)
      simp [andThen, hwritten, hretry, hshould, ret]
  | some n =>
      cases n with
      | zero =>
          refine .inr (.inr ⟨rfl, ?_⟩)
          simp [andThen, hwritten, ret]
      | succ n =>
          have hbuf : buf ≠ [] := hanswers.ne_nil (by simp [hwritten])
          have hshould := (hanswers.done buf _ hbuf hwritten).2
          refine .inl ⟨n, rfl, ?_⟩
          simp [andThen, hwritten, hshould, ret]

end TcpStream

theorem unfaulted_firstAnswers {answers : Nat → Answers} (h : ∀ i, (answers i).Unfaulted) (n : Nat) :
    ∀ answer ∈ firstAnswers answers n, answer.Unfaulted := by
  intro answer hanswer
  obtain ⟨i, -, rfl⟩ := List.mem_map.mp hanswer
  exact h i

namespace TcpSocketPollHandler

/-! ## The loop of `write` -/

/-- **The loop of `write`** on a plain socket without faults: if the stream accepts everything, the
queue is empty and the socket open; if not, and there are enough answers, either the socket is closed
or the `BIO` wants to write. -/
theorem drain_plain {writeBufsiz : Nat} {answers : List Answers} {stream : TcpStream}
    {queue : ByteQueue UInt8} (hplain : stream.Plain) (hopen : stream.isOpen = true)
    (hanswers : ∀ answer ∈ answers, answer.Unfaulted) :
    let call := drain sink (chunk writeBufsiz) answers (stream, queue)
    call.state.1.Plain ∧ (∃ going, call.result = .ok going) ∧
      (AcceptsAll writeBufsiz answers queue → call.state.2 = [] ∧ call.state.1.isOpen = true ∧
        call.state.1.shouldWrite = (queue.isEmpty && stream.shouldWrite)) ∧
      (¬ AcceptsAll writeBufsiz answers queue → (waiting queue).length < answers.length →
        call.state.1.isOpen = true → call.state.1.shouldWrite = true) := by
  induction answers generalizing stream queue with
  | nil =>
      refine ⟨hplain, ⟨true, rfl⟩, fun haccepts => ?_, fun _ hlength => absurd hlength (by simp)⟩
      cases queue with
      | nil => exact ⟨rfl, hopen, by simp [drain, loop, ret]⟩
      | cons entry queue => exact absurd haccepts id
  | cons answer answers ih =>
      cases queue with
      | nil =>
          have hstop : ready sink (stream, ([] : ByteQueue UInt8)) = false := by simp [ready]
          unfold drain loop
          rw [if_neg (by simp [hstop])]
          refine ⟨hplain, ⟨true, rfl⟩, fun _ => ⟨rfl, hopen, by simp [ret]⟩, fun hnot => ?_⟩
          exact absurd trivial hnot
      | cons entry queue =>
          obtain ⟨buf, offset⟩ := entry
          have hanswer := hanswers answer List.mem_cons_self
          have hrest : ∀ answer ∈ answers, answer.Unfaulted :=
            fun answer' h => hanswers answer' (List.mem_cons_of_mem answer h)
          rcases hplain.write_cases hanswer ((buf.drop offset).take (chunk writeBufsiz buf.length offset))
            with ⟨n, hwritten, heq⟩ | ⟨hwritten, heq⟩ | ⟨hwritten, heq⟩
          · have haccepts : AcceptsAll writeBufsiz (answer :: answers) ((buf, offset) :: queue) ↔
                AcceptsAll writeBufsiz answers (advance (n + 1) ((buf, offset) :: queue)) := by
              simp [AcceptsAll.cons_iff, hwritten]
            have hlength : (n + 1) + (waiting (advance (n + 1) ((buf, offset) :: queue))).length =
                (waiting ((buf, offset) :: queue)).length := by
              refine length_waiting_advance ?_ queue
              have hle := answer.le_of_write _ _ hwritten
              rw [List.length_take] at hle
              omega
            obtain ⟨hplain', hgoing, hall, hnotAll⟩ := @ih { stream with shouldWrite := false }
              (advance (n + 1) ((buf, offset) :: queue)) hplain hopen hrest
            rw [drain_of_done sink (chunk writeBufsiz) hopen heq, haccepts]
            refine ⟨hplain', hgoing, fun h => ?_, fun h hmore => hnotAll h ?_⟩
            · obtain ⟨hempty, hopen', hflag⟩ := hall h
              exact ⟨hempty, hopen', by rw [hflag]; simp⟩
            · rw [List.length_cons] at hmore
              omega
          · have hnot : ¬ AcceptsAll writeBufsiz (answer :: answers) ((buf, offset) :: queue) := by
              simp [AcceptsAll.cons_iff, hwritten]
            rw [drain_of_stop sink (chunk writeBufsiz) hopen heq (.inr rfl)]
            exact ⟨hplain, ⟨false, rfl⟩, fun h => absurd h hnot, fun _ _ _ => rfl⟩
          · have hnot : ¬ AcceptsAll writeBufsiz (answer :: answers) ((buf, offset) :: queue) := by
              simp [AcceptsAll.cons_iff, hwritten]
            rw [drain_of_stop sink (chunk writeBufsiz) hopen heq (.inl rfl)]
            exact ⟨hplain, ⟨false, rfl⟩, fun h => absurd h hnot, fun _ _ hclosed => by cases hclosed⟩

/-! ## When the connection is kept -/

/-- **The connection is kept**: the socket is open, and what the stream has not taken waits. -/
def KeepsConnection (handler : TcpSocketPollHandler)
    (call : Call TcpSocketPollHandler StreamEvent Exn Bool) : Prop :=
  call.state.isOpen = true ∧
    call.events.flatMap StreamEvent.taken ++ waiting call.state.writeQueue =
      waiting handler.writeQueue

/-- `write` loses no bytes: it keeps the connection when it leaves the socket open. -/
theorem keepsConnection_iff_isOpen {handler : TcpSocketPollHandler} (hlive : Live handler.writeQueue)
    (answers : Nat → Answers) (last : Answers) :
    handler.KeepsConnection (handler.write answers last) ↔
      (handler.write answers last).state.isOpen = true := by
  have hfaithful : Faithful handler.writeBufsiz (waiting handler.writeQueue) handler [] :=
    ⟨⟨rfl, hlive.inBounds⟩, rfl⟩
  constructor
  · exact fun h => h.1
  · exact fun h => ⟨h, (hfaithful.post_write answers last).always.1.1⟩

/-- The write at the end closes a plain socket whose `BIO` wants to write. -/
theorem isOpen_writePending {answers : Answers} {handler : TcpSocketPollHandler}
    (hplain : handler.stream.Plain) (hanswers : answers.Unfaulted) :
    (∃ isOpen, (handler.writePending answers).result = .ok isOpen) ∧
      ((handler.writePending answers).state.isOpen = true ↔
        handler.isOpen = true ∧ handler.stream.shouldWrite = false) := by
  unfold writePending
  split
  · next hpending =>
    rw [Bool.and_eq_true] at hpending
    have hempty := hanswers.empty
    rcases hplain.write_cases hanswers [] with ⟨n, hwritten, -⟩ | ⟨hwritten, -⟩ | ⟨-, heq⟩
    · rw [hempty] at hwritten
      cases hwritten
    · rw [hempty] at hwritten
      cases hwritten
    · rw [heq]
      refine ⟨⟨false, rfl⟩, fun hopen => ?_, fun h => ?_⟩
      · cases hopen
      · have hwants : handler.stream.shouldWrite = true := hpending.2
        rw [h.2] at hwants
        cases hwants
  · next hpending =>
    refine ⟨⟨handler.isOpen, rfl⟩, fun hopen => ⟨hopen, ?_⟩, fun h => h.1⟩
    have hopen' : handler.isOpen = true := hopen
    rw [hopen', Bool.true_and, Bool.not_eq_true] at hpending
    exact hpending

/-- A `write` to a plain socket without faults leaves the socket open when the loop does, with a `BIO`
that does not want to write. -/
theorem isOpen_write {handler : TcpSocketPollHandler} (hplain : handler.stream.Plain)
    (hopen : handler.isOpen = true) {answers : Nat → Answers} {last : Answers}
    (hanswers : ∀ i, (answers i).Unfaulted) (hlast : last.Unfaulted) :
    let call := drain sink (chunk handler.writeBufsiz)
      (firstAnswers answers ((waiting handler.writeQueue).length + 1))
      (handler.stream, handler.writeQueue)
    (handler.write answers last).state.isOpen = true ↔
      call.state.1.isOpen = true ∧ call.state.1.shouldWrite = false := by
  intro call
  obtain ⟨hplain', ⟨going, hgoing⟩, -, -⟩ := drain_plain hplain hopen
    (unfaulted_firstAnswers hanswers ((waiting handler.writeQueue).length + 1))
  let loop := handler.writeLoop (firstAnswers answers ((waiting handler.writeQueue).length + 1))
  have hloop : loop.result = .ok going := hgoing
  obtain ⟨⟨isOpen, hpending⟩, hiff⟩ := @isOpen_writePending last loop.state hplain' hlast
  have hwrite : (handler.write answers last).state = (loop.state.writePending last).state := by
    have hreturns : (loop.andThen fun _ handler => handler.writePending last).result =
        .ok isOpen := by
      rw [andThen_of_ok hloop]
      exact hpending
    unfold write
    rw [catching_of_ok hreturns, andThen_of_ok hloop]
  rw [hwrite]
  exact hiff

/-- **When a `write` keeps a plain connection** that has no fault: when the stream accepts everything
that waits, and the `BIO` does not want to write if nothing waits. -/
theorem write_keepsConnection_iff (handler : TcpSocketPollHandler) (hplain : handler.stream.Plain)
    (hopen : handler.isOpen = true) (hlive : Live handler.writeQueue) (answers : Nat → Answers)
    (last : Answers) (hanswers : ∀ i, (answers i).Unfaulted) (hlast : last.Unfaulted) :
    handler.KeepsConnection (handler.write answers last) ↔
      (∃ n, AcceptsAll handler.writeBufsiz (firstAnswers answers n) handler.writeQueue) ∧
        (handler.writeQueue = [] → handler.stream.shouldWrite = false) := by
  refine (keepsConnection_iff_isOpen hlive answers last).trans
    ((isOpen_write hplain hopen hanswers hlast).trans ?_)
  have hdrain := fun n => @drain_plain handler.writeBufsiz _ _ handler.writeQueue hplain hopen
    (unfaulted_firstAnswers hanswers n)
  constructor
  · rintro ⟨hopen', hflag⟩
    obtain ⟨-, -, hall, hnotAll⟩ := hdrain ((waiting handler.writeQueue).length + 1)
    have haccepts : AcceptsAll handler.writeBufsiz
        (firstAnswers answers ((waiting handler.writeQueue).length + 1)) handler.writeQueue := by
      by_contra hnot
      rw [hnotAll hnot (by simp [firstAnswers]) hopen'] at hflag
      cases hflag
    refine ⟨⟨_, haccepts⟩, fun hempty => ?_⟩
    rw [(hall haccepts).2.2, hempty] at hflag
    simpa using hflag
  · rintro ⟨⟨n, haccepts⟩, hflag⟩
    -- The loop has ended by the time everything has been accepted.
    let m := max n ((waiting handler.writeQueue).length + 1)
    obtain ⟨rest, hrest⟩ := firstAnswers_of_le answers (Nat.le_max_left n _ : n ≤ m)
    have hfaithful : Kept StreamEvent.taken (waiting handler.writeQueue) handler.writeQueue [] :=
      ⟨rfl, hlive.inBounds⟩
    have hends := ((hfaithful.faithfulWrite (s := (handler.stream, handler.writeQueue)) sink_faithful
      handler.writeBufsiz).ends answers m (Nat.lt_of_succ_le (Nat.le_max_right n _))).2
    obtain ⟨-, -, hall, -⟩ := hdrain m
    obtain ⟨hempty, hopen', hwants⟩ := hall (by rw [hrest]; exact haccepts.append rest)
    rw [← hends]
    refine ⟨hopen', ?_⟩
    rw [hwants]
    cases hqueue : handler.writeQueue with
    | nil => exact hflag hqueue
    | cons entry queue => rfl

/-- Three bytes that the stream takes at once. -/
theorem write_keepsConnection_three :
    let handler := (plain 8 8).enqueue [1, 2, 3]
    handler.KeepsConnection (handler.write (fun _ => .plainSocket false) (.plainSocket false)) :=
  (write_keepsConnection_iff ((plain 8 8).enqueue [1, 2, 3]) ⟨rfl, rfl⟩ rfl (by unfold Live; decide) _ _
    (fun _ => Answers.unfaulted_plainSocket false) (Answers.unfaulted_plainSocket false)).mpr
    ⟨⟨1, trivial⟩, fun _ => rfl⟩

/-- **A write that would block closes the socket**, with the bytes still waiting. -/
theorem blocked_write_closes :
    let handler := (plain 8 8).enqueue [1, 2, 3]
    let call := handler.write (fun _ => .plainSocket true) (.plainSocket true)
    (handler.stream.Plain ∧ handler.isOpen = true ∧ Live handler.writeQueue ∧
      (Answers.plainSocket true).Unfaulted) ∧
    ¬ handler.KeepsConnection call ∧ call.state.isOpen = false ∧
      waiting call.state.writeQueue = [1, 2, 3] := by
  intro handler call
  have hclosed : call.state.isOpen = false := rfl
  refine ⟨⟨⟨rfl, rfl⟩, rfl, by unfold Live; decide, Answers.unfaulted_plainSocket true⟩, fun h => ?_,
    hclosed, rfl⟩
  rw [h.1] at hclosed
  cases hclosed

end TcpSocketPollHandler

end SquawkBus.Io
