import SquawkBus.Messages.RoundTrip
import SquawkBus.Server.Footprint

/-!
# What a chunk leads to

A reader that holds no frame makes at most one of a chunk, so a call of `receive` processes at most
one message (`receive_cases`), and leaves the reader without frames again. What becomes of the
message depends on whether the connection is authenticated, and if it is not, on what the
authentication manager says of it.
-/

namespace SquawkBus.Serialization.FrameReader

/-! ## The reader -/

/-- A write makes at most one frame. -/
theorem frames_write {reader reader' : FrameReader} {buf : Bytes} {hasFrame : Bool}
    (h : reader.write buf = .ok (hasFrame, reader')) :
    reader'.frames = reader.frames ∨ ∃ frame, reader'.frames = reader.frames ++ [frame] := by
  have hlength : ∀ reader reader' : FrameReader, reader.takeLength = .ok reader' →
      reader'.frames = reader.frames := by
    intro reader reader' h
    unfold takeLength at h
    split at h
    · obtain ⟨_, _, h⟩ := Except.bind_eq_ok.mp h
      cases h
      rfl
    · cases h
      rfl
  have hframe : ∀ {reader reader' : FrameReader}, reader.takeFrame = .ok reader' →
      reader'.frames = reader.frames ∨ ∃ frame, reader'.frames = reader.frames ++ [frame] := by
    intro reader reader' h
    unfold takeFrame at h
    split at h
    · cases h
      exact .inl rfl
    · split at h
      · obtain ⟨_, _, h⟩ := Except.bind_eq_ok.mp h
        cases h
        exact .inr ⟨_, rfl⟩
      · cases h
        exact .inl rfl
  obtain ⟨first, hfirst, h⟩ := Except.bind_eq_ok.mp h
  obtain ⟨second, hsecond, h⟩ := Except.bind_eq_ok.mp h
  cases h
  have hsame := hlength _ _ hfirst
  simp only at hsame
  rw [← hsame]
  exact hframe hsecond

end SquawkBus.Serialization.FrameReader

namespace SquawkBus.Server

open SquawkBus.Io SquawkBus.Messages SquawkBus.Serialization

variable {ρ : Type} [RegexEngine ρ]

/-- The interactor with a reader whose frames have been read. -/
def Interactor.drained (interactor : Interactor) (reader : FrameReader) : Interactor :=
  { interactor with reader := { reader with frames := [] } }

namespace ServerState

/-! ## One message -/

/-- The response on the wire. -/
def response : Bytes := Message.wire (.authenticationResponse ⟨true⟩)

theorem send_response (server : ServerState ρ) (fd : Fd) :
    server.send fd (.authenticationResponse ⟨true⟩) =
      .emit (server.write fd response) [.sent fd (.authenticationResponse ⟨true⟩)] := by
  unfold send
  rw [Message.toVector_serialize (by decide) (by decide)]
  rfl

variable (md5 : Bytes → Bytes) {server : ServerState ρ} {fd : Fd} {interactor : Interactor}

/-- On an authenticated connection the hub is given the message. -/
theorem processMessage_of_user (h : interactor.user.isSome) (message : Message) :
    server.processMessage md5 fd interactor message =
      (Outcome.emit server [.processed fd message, .handled fd message]).andThen fun server =>
        server.onHub (.message interactor.address message) := by
  obtain ⟨user, huser⟩ := Option.isSome_iff_exists.mp h
  unfold processMessage
  rw [huser]
  rfl

/-- On a new connection the message is taken for an authentication request. -/
theorem processMessage_of_none (h : interactor.user = none) (message : Message) :
    server.processMessage md5 fd interactor message =
      (Outcome.emit server [.processed fd message]).andThen fun server =>
        server.authenticate md5 fd interactor message := by
  unfold processMessage
  rw [h]

theorem authenticate_error {request : AuthenticationRequest} {e : Exn}
    (h : server.authenticationManager.authenticate md5 request = .error e) :
    server.authenticate md5 fd interactor (.authenticationRequest request) =
      .fail server (.thrown e) := by
  simp only [authenticate, h]

/-- The connection is authenticated, and answered. -/
theorem authenticate_some {request : AuthenticationRequest} {user : Bytes}
    (h : server.authenticationManager.authenticate md5 request = .ok (some user)) :
    server.authenticate md5 fd interactor (.authenticationRequest request) =
      .emit ((server.withInteractor fd { interactor with user := some user }).write fd response)
        [.authenticated fd user, .sent fd (.authenticationResponse ⟨true⟩)] := by
  simp only [authenticate, h]
  rw [Outcome.andThen_of_ok rfl, Outcome.emit_state, send_response]
  rfl

/-- The connection is rejected, and answered all the same. -/
theorem authenticate_none {request : AuthenticationRequest}
    (h : server.authenticationManager.authenticate md5 request = .ok none) :
    server.authenticate md5 fd interactor (.authenticationRequest request) =
      .emit (((server.withInteractor fd { interactor with user := none }).close fd).write fd
          response)
        [.rejected fd, .sent fd (.authenticationResponse ⟨true⟩)] := by
  simp only [authenticate, h]
  rw [Outcome.andThen_of_ok rfl, Outcome.emit_state, send_response]
  rfl

theorem authenticate_other {message : Message}
    (h : ∀ request, message ≠ .authenticationRequest request) :
    server.authenticate md5 fd interactor message =
      ⟨server.close fd, [.rejected fd], some .undefined⟩ := by
  cases message with
  | authenticationRequest request => exact absurd rfl (h request)
  | _ => rfl

/-- What the setting of the user, the closing and the answer keep, `authenticate` keeps. -/
theorem authenticate_keeps {P : ServerState ρ → Prop} (h : P server)
    (hset : ∀ user, P (server.withInteractor fd { interactor with user }))
    (hclose : ∀ s : ServerState ρ, P s → P (s.close fd))
    (hwrite : ∀ s : ServerState ρ, P s → P (s.write fd response)) (message : Message) :
    P (server.authenticate md5 fd interactor message).state := by
  cases message with
  | authenticationRequest request =>
      cases hanswer : server.authenticationManager.authenticate md5 request with
      | error e =>
          rw [authenticate_error md5 hanswer]
          exact h
      | ok answer =>
          cases answer with
          | some user =>
              rw [authenticate_some md5 hanswer]
              exact hwrite _ (hset (some user))
          | none =>
              rw [authenticate_none md5 hanswer]
              exact hwrite _ (hclose _ (hset none))
  | _ =>
      rw [authenticate_other md5 (by simp)]
      exact hclose _ h

/-! ## One chunk -/

/-- What follows the taking of a frame. -/
def processFrame (fd : Fd) (interactor : Interactor) (frame : Bytes) (server : ServerState ρ) :
    ServerOutcome ρ :=
  match Message.deserialize (FrameBuffer.empty.write frame) with
  | .error fault => .fail server fault
  | .ok (message, _) => server.processMessage md5 fd interactor message

theorem serves_processFrame (server : ServerState ρ) (fd : Fd) (interactor : Interactor)
    (frame : Bytes) : Serves server fd (server.processFrame md5 fd interactor frame) := by
  unfold processFrame
  split
  · exact Outcome.ensures_fail (.refl server fd) trivial
  · exact server.serves_processMessage md5 fd interactor _

@[simp] theorem get_withInteractor (server : ServerState ρ) (fd : Fd) (interactor : Interactor) :
    (server.withInteractor fd interactor).interactors[fd]? = some interactor := by
  rw [OrdMap.get_insert, if_pos rfl]

theorem withInteractor_twice (server : ServerState ρ) (fd : Fd) (interactor interactor' : Interactor) :
    (server.withInteractor fd interactor).withInteractor fd interactor' =
      server.withInteractor fd interactor' := by
  have htwice : (server.interactors.insert fd interactor).insert fd interactor' =
      server.interactors.insert fd interactor' := by
    apply Std.ExtTreeMap.ext_getElem?
    intro fd'
    simp only [OrdMap.get_insert]
    split <;> rfl
  rw [withInteractor, withInteractor, htwice]

/-- **A chunk leads to at most one message.** -/
theorem receive_cases (h : server.interactors[fd]? = some interactor)
    (hframes : interactor.reader.frames = []) (buf : Bytes) :
    (∃ fault, interactor.reader.write buf = .error fault ∧
      server.receive md5 fd buf = .fail server fault) ∨
    ∃ hasFrame reader, interactor.reader.write buf = .ok (hasFrame, reader) ∧
      ((reader.frames = [] ∧ server.receive md5 fd buf =
          .done (server.withInteractor fd (interactor.drained reader))) ∨
        ∃ frame, reader.frames = [frame] ∧ server.receive md5 fd buf =
          (server.withInteractor fd (interactor.drained reader)).processFrame md5 fd
            (interactor.drained reader) frame) := by
  unfold receive
  rw [h]
  simp only
  cases hwrite : interactor.reader.write buf with
  | error fault => exact .inl ⟨fault, rfl, rfl⟩
  | ok answer =>
      obtain ⟨hasFrame, reader⟩ := answer
      refine .inr ⟨hasFrame, reader, rfl, ?_⟩
      dsimp only
      rcases FrameReader.frames_write hwrite with hsame | ⟨frame, hone⟩
      · rw [hframes] at hsame
        refine .inl ⟨hsame, ?_⟩
        have hdrained : { interactor with reader } = interactor.drained reader := by
          rw [Interactor.drained, ← hsame]
        rw [hsame, hdrained]
        rfl
      · rw [hframes, List.nil_append] at hone
        refine .inr ⟨frame, hone, ?_⟩
        rw [hone, Outcome.forEach_cons]
        have hround : receiveFrame md5 fd (server.withInteractor fd { interactor with reader }) =
            (server.withInteractor fd (interactor.drained reader)).processFrame md5 fd
              (interactor.drained reader) frame := by
          unfold receiveFrame
          rw [OrdMap.get_insert, if_pos rfl]
          simp only [FrameReader.read, hone]
          have htwice := server.withInteractor_twice fd { interactor with reader }
            (interactor.drained reader)
          rw [← htwice]
          rfl
        rw [hround]
        exact Outcome.andThen_done _

/-! ## The rule of receiving

What the taking of a frame keeps, and the processing of a message, is kept by all that leads to
them. -/

section

variable {P : ServerState ρ → Prop}
  (htake : ∀ (s : ServerState ρ) interactor reader, P s → s.interactors[fd]? = some interactor →
    P (s.withInteractor fd { interactor with reader }))
  (hprocess : ∀ (s : ServerState ρ) interactor message, P s →
    s.interactors[fd]? = some interactor → P (s.processMessage md5 fd interactor message).state)

include htake hprocess

theorem receiveFrame_keeps (h : P server) : P (server.receiveFrame md5 fd).state := by
  unfold receiveFrame
  split
  · exact h
  · next interactor hget =>
    split
    · exact h
    · next frame reader _ =>
      have htaken := htake server interactor reader h hget
      simp only
      split
      · exact htaken
      · exact hprocess _ _ _ htaken (get_withInteractor _ _ _)

theorem receive_keeps (h : P server) (buf : Bytes) : P (server.receive md5 fd buf).state := by
  unfold receive
  split
  · exact h
  · next interactor hget =>
    split
    · exact h
    · next reader _ =>
      exact Outcome.forEach_keeps (fun s _ hs => receiveFrame_keeps md5 htake hprocess hs)
        (htake server interactor reader h hget) _

theorem onRead_keeps (h : P server) (bufs : List Bytes) :
    P (server.onRead md5 fd bufs).state := by
  unfold onRead
  split
  · exact h
  · exact Outcome.forEach_keeps (P := P)
      (fun s buf hs => receive_keeps md5 htake hprocess hs buf) h _

end

/-! ## What a chunk leaves of the interactor -/

/-- A message changes nothing of the interactor but its user, and that only once. -/
theorem interactor_processMessage (h : server.interactors[fd]? = some interactor)
    (message : Message) :
    ∃ user, (server.processMessage md5 fd interactor message).state.interactors[fd]? =
        some { interactor with user } ∧ (interactor.user.isSome → user = interactor.user) := by
  cases huser : interactor.user with
  | some user =>
      rw [processMessage_of_user md5 (by simp [huser]), Outcome.andThen_of_ok rfl]
      refine ⟨some user, ?_, fun _ => rfl⟩
      rw [(ensures_onHub _ _).state.interactors, ← huser]
      exact h
  | none =>
      have hsame : server.interactors[fd]? = some { interactor with user := none } := by
        rw [← huser]
        exact h
      rw [processMessage_of_none md5 huser, Outcome.andThen_of_ok rfl]
      cases message with
      | authenticationRequest request =>
          cases hanswer : server.authenticationManager.authenticate md5 request with
          | error e =>
              rw [Outcome.emit_state, authenticate_error md5 hanswer]
              exact ⟨none, hsame, by simp⟩
          | ok user =>
              cases user with
              | none =>
                  rw [Outcome.emit_state, authenticate_none md5 hanswer]
                  exact ⟨none, by simp, by simp⟩
              | some user =>
                  rw [Outcome.emit_state, authenticate_some md5 hanswer]
                  exact ⟨some user, by simp, by simp⟩
      | _ =>
          rw [Outcome.emit_state, authenticate_other md5 (by simp)]
          exact ⟨none, by simpa using hsame, by simp⟩

theorem interactor_processFrame (h : server.interactors[fd]? = some interactor) (frame : Bytes) :
    ∃ user, (server.processFrame md5 fd interactor frame).state.interactors[fd]? =
        some { interactor with user } ∧ (interactor.user.isSome → user = interactor.user) := by
  unfold processFrame
  split
  · exact ⟨interactor.user, h, fun _ => rfl⟩
  · exact interactor_processMessage md5 h _

/-- A chunk leaves the reader without frames. -/
theorem interactor_receive (h : server.interactors[fd]? = some interactor)
    (hframes : interactor.reader.frames = []) (buf : Bytes) :
    ∃ reader user, (server.receive md5 fd buf).state.interactors[fd]? =
        some { interactor with reader, user } ∧ reader.frames = [] ∧
      (interactor.user.isSome → user = interactor.user) := by
  rcases receive_cases md5 h hframes buf with ⟨fault, -, heq⟩ | ⟨hasFrame, reader, -, ⟨-, heq⟩ |
    ⟨frame, -, heq⟩⟩ <;> rw [heq]
  · exact ⟨interactor.reader, interactor.user, h, hframes, fun _ => rfl⟩
  · exact ⟨_, interactor.user, get_withInteractor _ _ _, rfl, fun _ => rfl⟩
  · obtain ⟨user, hstate, hsame⟩ :=
      interactor_processFrame md5 (server.get_withInteractor fd (interactor.drained reader)) frame
    exact ⟨_, user, hstate, rfl, hsame⟩

/-! ### Readers between two chunks -/

/-- No reader holds a frame: so it is whenever no chunk is being received. -/
def Drained (server : ServerState ρ) : Prop :=
  ∀ (fd : Fd) interactor, server.interactors[fd]? = some interactor → interactor.reader.frames = []

theorem Drained.of_interactors (h : server.Drained) {server' : ServerState ρ}
    (hsub : ∀ (fd : Fd) interactor, server'.interactors[fd]? = some interactor →
      server.interactors[fd]? = some interactor) : server'.Drained :=
  fun fd interactor hget => h fd interactor (hsub fd interactor hget)

theorem Drained.onHub (h : server.Drained) (step : HubStep ρ) :
    (server.onHub step).state.Drained := by
  refine h.of_interactors fun fd interactor hget => ?_
  rwa [(server.ensures_onHub step).state.interactors] at hget

theorem Drained.onClose (h : server.Drained) (fd : Fd) : (server.onClose fd).state.Drained :=
  h.of_interactors fun _ _ hget => get_of_onClose hget

theorem Drained.onOpen (h : server.Drained) (client : Client) :
    (server.onOpen client).state.Drained := by
  intro fd interactor hget
  rcases get_of_onOpen hget with ⟨-, -, rfl⟩ | hold
  · rfl
  · exact h fd interactor hold

theorem Drained.receive (h : server.Drained) (fd : Fd) (buf : Bytes) :
    (server.receive md5 fd buf).state.Drained := by
  intro fd' interactor' hget
  by_cases hfd : fd' = fd
  · subst hfd
    cases hhere : server.interactors[fd']? with
    | none =>
        have heq : server.receive md5 fd' buf = .fail server .undefined := by
          unfold ServerState.receive
          rw [hhere]
        rw [heq, Outcome.fail_state, hhere] at hget
        cases hget
    | some interactor =>
        obtain ⟨reader, user, hstate, hframes, -⟩ :=
          interactor_receive md5 hhere (h fd' interactor hhere) buf
        rw [hstate] at hget
        cases hget
        exact hframes
  · rw [(server.serves_receive md5 fd buf).state.interactors fd' hfd] at hget
    exact h fd' interactor' hget

theorem Drained.onRead (h : server.Drained) (fd : Fd) (bufs : List Bytes) :
    (server.onRead md5 fd bufs).state.Drained := by
  unfold ServerState.onRead
  split
  · exact h
  · refine (Outcome.Ensures.forEach (P := Drained) (Q := fun _ => True) (F := fun _ => True)
      (fun buf _ s hs => ?_) h).state
    exact ⟨hs.receive md5 fd buf, fun _ _ => trivial, fun _ _ => trivial⟩

end ServerState

end SquawkBus.Server
