import SquawkBus.Io.Ssl
import SquawkBus.Library.ByteQueue

/-!
# Socket streams

`TcpStream` with the `BIO` and the `TcpSocket` it uses: whether the stream has an `SSL`, whether the
socket is open, and whether the `BIO` wants to write. Each call is given the answers of OpenSSL, and
the calls it makes to OpenSSL are its events.
-/

namespace SquawkBus.Io

/-! ## What a stream does -/

/-- A call of OpenSSL with what it returned. -/
inductive StreamEvent where
  | handshake (ret : Int)
  /-- `Ssl::verify`, which returns or throws. -/
  | verify (returned : Bool)
  | shutdown (ret : Int)
  | quietShutdown
  | bioRead (len : Nat) (data : Option Bytes)
  | bioWrite (buf : Bytes) (written : Option Nat)
  deriving DecidableEq

namespace StreamEvent

/-- A read or a write of application bytes. -/
def isData : StreamEvent → Bool
  | bioRead _ _ => true
  | bioWrite _ _ => true
  | _ => false

/-- The bytes that went out. -/
def taken : StreamEvent → Bytes
  | bioWrite buf (some written) => buf.take written
  | _ => []

/-- Calls among which are no reads and no writes. -/
def Quiet (events : List StreamEvent) : Prop := ∀ event ∈ events, event.isData = false

theorem Quiet.append {events events' : List StreamEvent} (h : Quiet events) (h' : Quiet events') :
    Quiet (events ++ events') := by
  intro event hevent
  rcases List.mem_append.mp hevent with hold | hnew
  · exact h event hold
  · exact h' event hnew

/-- Only writes send bytes. -/
theorem Quiet.taken_eq {events : List StreamEvent} (h : Quiet events) : events.flatMap taken = [] := by
  rw [List.flatMap_eq_nil_iff]
  intro event hevent
  have hquiet := h event hevent
  cases event with
  | bioWrite buf written => cases hquiet
  | bioRead len data => cases hquiet
  | handshake ret => rfl
  | verify returned => rfl
  | shutdown ret => rfl
  | quietShutdown => rfl

end StreamEvent

namespace TcpStream

/-! ## Its state -/

inductive State where
  | start
  | handshake
  | data
  | shutdown
  | stop
  deriving DecidableEq

end TcpStream

/-- `TcpStream`. -/
structure TcpStream where
  /-- Whether `bio_.ssl` has a value. -/
  ssl : Bool
  shouldVerify : Bool
  state : TcpStream.State
  /-- `socket->is_open()`. -/
  isOpen : Bool
  /-- `BIO_should_write`. -/
  shouldWrite : Bool
  deriving DecidableEq

/-- A call of a stream. -/
abbrev StreamCall (α : Type) := Call TcpStream StreamEvent Exn α

namespace TcpStream

/-! ## Construction -/

/-- A stream on an open socket, without TLS. -/
def plain : TcpStream := ⟨false, false, .start, true, false⟩

/-- A stream on an open socket, with TLS. -/
def secured (isClient : Bool) : TcpStream := ⟨true, isClient, .handshake, true, false⟩

/-- A client that knows the name of its server; the `SSL` has accepted the name. -/
def client : TcpStream := secured true

def wantWrite (stream : TcpStream) : Bool := stream.shouldWrite

/-! ## Calls of OpenSSL -/

def sslHandshake (answers : Answers) (stream : TcpStream) : StreamCall (Option Bool) :=
  ⟨stream, [.handshake answers.handshake.1], Ssl.doHandshake answers⟩

def sslVerify (answers : Answers) (stream : TcpStream) : StreamCall Unit :=
  ⟨stream, [.verify (Ssl.verify answers).toBool], Ssl.verify answers⟩

def sslShutdown (answers : Answers) (stream : TcpStream) : StreamCall (Option Bool) :=
  ⟨stream, [.shutdown answers.shutdown.1], Ssl.shutdown answers⟩

def bioRead (answers : Answers) (len : Nat) (stream : TcpStream) : StreamCall (Option Bytes) :=
  let answer := answers.read len
  ⟨{ stream with shouldWrite := answer.shouldWrite }, [.bioRead len answer.data], .ok answer.data⟩

def bioWrite (answers : Answers) (buf : Bytes) (stream : TcpStream) : StreamCall (Option Nat) :=
  let answer := answers.write buf
  ⟨{ stream with shouldWrite := answer.shouldWrite }, [.bioWrite buf answer.written],
    .ok answer.written⟩

/-! ## The calls of a stream -/

/-- `do_handshake`. -/
def doHandshake (answers : Answers) (stream : TcpStream) : StreamCall Bool :=
  if !stream.ssl || stream.state ≠ .handshake then .ret true stream
  else
    (sslHandshake answers stream).andThen fun isComplete stream =>
      if isComplete = some true then
        -- The stream is in state DATA even if the peer then fails its check.
        let stream := { stream with state := .data }
        if stream.shouldVerify then (sslVerify answers stream).andThen fun _ stream => .ret true stream
        else .ret true stream
      else .ret false stream

/-- `handle_client_faulted`. -/
def handleClientFaulted (stream : TcpStream) : StreamCall Unit :=
  if stream.ssl then ⟨stream, [.quietShutdown], .ok ()⟩ else .ret () stream

/-- `handle_shutdown`. -/
def handleShutdown (answers : Answers) (stream : TcpStream) : StreamCall Bool :=
  if !stream.ssl then .ret true { stream with state := .stop }
  else
    (sslShutdown answers stream).andThen fun isCompleted stream =>
      if isCompleted = some true then .ret true { stream with isOpen := false, state := .stop }
      else .ret false stream

/-- A shutdown that is complete is the end of the stream. -/
def shutdownAttempt (α : Type) (answers : Answers) (stream : TcpStream) : StreamCall (Attempt α) :=
  (handleShutdown answers stream).andThen fun isDone stream =>
    .ret (if isDone then .eof else .blocked) stream

/-- How `read` and `write` begin; `io` is what they do with the `BIO`. -/
def prepared {α : Type} (answers : Answers) (io : TcpStream → StreamCall (Attempt α))
    (stream : TcpStream) : StreamCall (Attempt α) :=
  (if stream.state = .handshake then doHandshake answers stream else .ret true stream).andThen
    fun isDone stream =>
      if !isDone then .ret .blocked stream
      else if stream.state = .shutdown then shutdownAttempt α answers stream
      else io stream

/-- `read`. -/
def read (answers : Answers) (len : Nat) : TcpStream → StreamCall (Attempt Bytes) :=
  prepared answers fun stream =>
    (bioRead answers len stream).andThen fun data stream =>
      match data with
      | none =>
          if (answers.read len).shouldRetry then .ret .blocked stream
          else if stream.ssl && answers.error = .zeroReturn then
            shutdownAttempt Bytes answers { stream with state := .shutdown }
          else
            (handleClientFaulted stream).andThen fun _ stream =>
              .ret .eof { stream with isOpen := false }
      | some [] => .ret .eof { stream with isOpen := false }
      | some buf => .ret (.done buf) stream

/-- `write`. -/
def write (answers : Answers) (buf : Bytes) : TcpStream → StreamCall (Attempt Nat) :=
  prepared answers fun stream =>
    (bioWrite answers buf stream).andThen fun written stream =>
      match written with
      | none =>
          if (answers.write buf).shouldRetry then .ret .blocked stream
          else
            (handleClientFaulted { stream with isOpen := false }).andThen fun _ stream =>
              .throws (.runtimeError "failed to write") stream
      | some 0 => .ret .eof { stream with isOpen := false }
      | some written => .ret (.done written) stream

/-! ## What the calls do -/

section Specifications

open Call StreamEvent

variable {h : List StreamEvent}

/-- **The handshake**: when it is complete the stream is in state DATA, and the peer has been verified
if it had to be. What a handshake does is neither a read nor a write. -/
theorem post_doHandshake (answers : Answers) {stream : TcpStream} (hssl : stream.ssl = true)
    (hstate : stream.state = .handshake) :
    Post h (doHandshake answers stream)
      (fun isDone s h' => ∃ events, h' = h ++ events ∧ Quiet events ∧
        s = (if isDone then { stream with state := .data } else stream) ∧
        (isDone = true → .handshake 1 ∈ events ∧
          (stream.shouldVerify = true → .verify true ∈ events)))
      (fun e _ h' => ∃ events, h' = h ++ events ∧ Quiet events ∧ e.isStdException = true) := by
  have hgoes : (!stream.ssl || decide (stream.state ≠ .handshake)) = false := by
    simp [hssl, hstate]
  unfold doHandshake
  rw [hgoes, if_neg Bool.false_ne_true]
  refine post_andThen (R := fun isComplete s h' => s = stream ∧
    h' = h ++ [.handshake answers.handshake.1] ∧
    Ssl.doHandshake answers = .ok isComplete) ?_ ?_
  · unfold Post sslHandshake
    cases hresult : Ssl.doHandshake answers with
    | ok isComplete => exact ⟨rfl, rfl, rfl⟩
    | error e =>
        exact ⟨_, rfl, by simp [Quiet, isData], Ssl.isStdException_of_doHandshake hresult⟩
  · rintro isComplete s h' ⟨rfl, rfl, hresult⟩
    split
    · next hcomplete =>
      rw [hcomplete, Ssl.doHandshake_complete_iff] at hresult
      rw [hresult]
      simp only
      split
      · next hverify =>
        refine post_andThen (R := fun _ t h' => t = { s with state := .data } ∧
          h' = h ++ [.handshake 1, .verify true]) ?_ ?_
        · unfold Post sslVerify
          cases hverified : Ssl.verify answers with
          | ok _ => exact ⟨rfl, by simp [Except.toBool]⟩
          | error e => exact ⟨[.handshake 1, .verify false], by simp [Except.toBool],
              by simp [Quiet, isData], Ssl.isStdException_of_verify hverified⟩
        · rintro - t h' ⟨rfl, rfl⟩
          exact post_ret ⟨_, rfl, by simp [Quiet, isData], rfl, by simp⟩
      · next hverify =>
        exact post_ret ⟨_, rfl, by simp [Quiet, isData], rfl,
          fun _ => ⟨by simp, fun hshould => absurd hshould hverify⟩⟩
    · exact post_ret ⟨_, rfl, by simp [Quiet, isData], rfl, by simp⟩

/-- **The shutdown** ends the attempt that makes it. It keeps the peer's checks and reads and writes
nothing. -/
theorem post_shutdownAttempt (α : Type) (answers : Answers) {stream : TcpStream}
    (hstate : stream.state ≠ .handshake) :
    Post h (shutdownAttempt α answers stream)
      (fun attempt s h' => (attempt = .eof ∨ attempt = .blocked) ∧ ∃ events, h' = h ++ events ∧
        Quiet events ∧ s.ssl = stream.ssl ∧ s.shouldVerify = stream.shouldVerify ∧
        s.state ≠ .handshake ∧ (attempt = .blocked → s.isOpen = stream.isOpen))
      (fun e _ h' => ∃ events, h' = h ++ events ∧ Quiet events ∧ e.isStdException = true) := by
  unfold shutdownAttempt
  refine post_andThen (R := fun isDone s h' => ∃ events, h' = h ++ events ∧ Quiet events ∧
    s.ssl = stream.ssl ∧ s.shouldVerify = stream.shouldVerify ∧ s.state ≠ .handshake ∧
      (isDone = false → s.isOpen = stream.isOpen)) ?_ ?_
  · unfold handleShutdown
    split
    · exact post_ret ⟨[], by simp, by simp [Quiet], rfl, rfl, by simp, fun _ => rfl⟩
    · refine post_andThen (R := fun _ s h' => s = stream ∧
        h' = h ++ [.shutdown answers.shutdown.1]) ?_ ?_
      · unfold Post sslShutdown
        cases hresult : Ssl.shutdown answers with
        | ok isCompleted => exact ⟨rfl, rfl⟩
        | error e =>
            exact ⟨_, rfl, by simp [Quiet, isData], Ssl.isStdException_of_shutdown hresult⟩
      · rintro isCompleted s h' ⟨rfl, rfl⟩
        split
        · exact post_ret ⟨_, rfl, by simp [Quiet, isData], rfl, rfl, by simp, by simp⟩
        · exact post_ret ⟨_, rfl, by simp [Quiet, isData], rfl, rfl, hstate, fun _ => rfl⟩
  · rintro isDone s _ ⟨events, rfl, hquiet, hssl, hverify, hnext, hopen⟩
    cases isDone with
    | true => exact post_ret ⟨.inl rfl, events, rfl, hquiet, hssl, hverify, hnext, by simp⟩
    | false =>
        exact post_ret ⟨.inr rfl, events, rfl, hquiet, hssl, hverify, hnext, fun _ => hopen rfl⟩

/-- A fault leaves the stream as it is. -/
theorem post_handleClientFaulted (stream : TcpStream) :
    Post h (handleClientFaulted stream)
      (fun _ s h' => s = stream ∧ ∃ events, h' = h ++ events ∧ Quiet events)
      (fun _ _ _ => False) := by
  unfold handleClientFaulted
  split
  · exact ⟨rfl, _, rfl, by simp [Quiet, isData]⟩
  · exact post_ret ⟨rfl, [], by simp, by simp [Quiet]⟩

/-- The rule for `prepared`: `R` is what holds before the shutdown and before the `BIO` is used. -/
theorem post_prepared {α : Type} {answers : Answers} {io : TcpStream → StreamCall (Attempt α)}
    {stream : TcpStream} {Q : Attempt α → TcpStream → List StreamEvent → Prop}
    {E : Exn → TcpStream → List StreamEvent → Prop} {R : TcpStream → List StreamEvent → Prop}
    (hhandshake : stream.state = .handshake → Post h (doHandshake answers stream)
      (fun isDone s h' => if isDone then R s h' else Q .blocked s h') E)
    (hdata : stream.state ≠ .handshake → R stream h)
    (hshutdown : ∀ s h', R s h' → s.state = .shutdown →
      Post h' (shutdownAttempt α answers s) Q E)
    (hio : ∀ s h', R s h' → s.state ≠ .shutdown → Post h' (io s) Q E) :
    Post h (prepared answers io stream) Q E := by
  unfold prepared
  refine post_andThen
    (R := fun (isDone : Bool) s h' => if isDone then R s h' else Q .blocked s h') ?_ ?_
  · split
    · next hstate => exact hhandshake hstate
    · next hstate => exact post_ret (hdata hstate)
  · intro isDone s h' hs
    cases isDone with
    | false => exact post_ret hs
    | true =>
        show Post h' (if s.state = .shutdown then _ else _) Q E
        split
        · next hstate => exact hshutdown s h' hs hstate
        · next hstate => exact hio s h' hs hstate

/-- **What happens before the `BIO` is used** moves no data, and closes the socket only where it ends the
attempt with the end of the stream or an exception. -/
theorem post_prepared_of_quiet {α : Type} {answers : Answers}
    {io : TcpStream → StreamCall (Attempt α)} {stream : TcpStream}
    {Q : Attempt α → TcpStream → List StreamEvent → Prop}
    {E : Exn → TcpStream → List StreamEvent → Prop}
    (hstop : ∀ attempt s events, Quiet events →
      attempt = .eof ∨ attempt = .blocked ∧ s.isOpen = stream.isOpen → Q attempt s (h ++ events))
    (hthrown : ∀ e s events, Quiet events → e.isStdException = true → E e s (h ++ events))
    (hio : ∀ s events, Quiet events → s.isOpen = stream.isOpen → Post (h ++ events) (io s) Q E) :
    Post h (prepared answers io stream) Q E := by
  refine post_prepared (R := fun s h' => ∃ events, h' = h ++ events ∧ Quiet events ∧
    s.isOpen = stream.isOpen) (fun hstate => ?_) (fun _ => ⟨[], by simp, by simp [Quiet], rfl⟩) ?_ ?_
  · cases hssl : stream.ssl with
    | false =>
        have hplain : doHandshake answers stream = .ret true stream := by
          simp [doHandshake, hssl]
        rw [hplain]
        exact post_ret ⟨[], by simp, by simp [Quiet], rfl⟩
    | true =>
        refine (post_doHandshake answers hssl hstate).mono ?_ ?_
        · rintro isDone s _ ⟨events, rfl, hquiet, rfl, -⟩
          cases isDone with
          | true => exact ⟨events, rfl, hquiet, rfl⟩
          | false => exact hstop _ _ events hquiet (.inr ⟨rfl, rfl⟩)
        · rintro e s _ ⟨events, rfl, hquiet, hstd⟩
          exact hthrown e s events hquiet hstd
  · rintro s _ ⟨events, rfl, hquiet, hopen⟩ hstate
    refine (post_shutdownAttempt α answers (by simp [hstate])).mono ?_ ?_
    · rintro attempt t _ ⟨hattempt, more, rfl, hmore, -, -, -, hopen'⟩
      rw [List.append_assoc]
      refine hstop _ _ _ (hquiet.append hmore) ?_
      rcases hattempt with rfl | rfl
      · exact .inl rfl
      · exact .inr ⟨rfl, (hopen' rfl).trans hopen⟩
    · rintro e t _ ⟨more, rfl, hmore, hstd⟩
      rw [List.append_assoc]
      exact hthrown e t _ (hquiet.append hmore) hstd
  · rintro s _ ⟨events, rfl, hquiet, hopen⟩ _
    exact hio s events hquiet hopen

end Specifications

end TcpStream

end SquawkBus.Io
