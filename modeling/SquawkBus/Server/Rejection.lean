import SquawkBus.Server.EventLoop
import SquawkBus.Server.Receive

/-!
# Rejected connections

When `authenticate` refuses a message it asks the poller to close the descriptor. That only marks
the handler: what has been read already is still processed, buffer after buffer, and a second
authentication request in it is answered and may be accepted. Where no such request follows in the
same read, nothing more comes of the connection: its handler is closed, reads nothing, and goes
with the next sweep.

`Phase` follows one connection through the events; `Sound` ties its phase to the handler.
-/

namespace SquawkBus.Server

open SquawkBus.Io SquawkBus.Messages SquawkBus.Serialization

variable {ρ : Type} [RegexEngine ρ]

/-! ## What a rejection rules out -/

/-- The event lets the client in: its user is set, the hub is given a message of it, or it is told
that it is authenticated. -/
def ServerEvent.Admits (fd : Fd) : ServerEvent → Prop
  | .authenticated fd' _ => fd' = fd
  | .handled fd' _ => fd' = fd
  | .sent fd' message => fd' = fd ∧ message = .authenticationResponse ⟨true⟩
  | _ => False

instance (fd : Fd) (e : ServerEvent) : Decidable (e.Admits fd) := by
  cases e <;> unfold ServerEvent.Admits <;> infer_instance

/-- A message of the client is processed. -/
def ServerEvent.Processes (fd : Fd) : ServerEvent → Prop
  | .processed fd' _ => fd' = fd
  | _ => False

instance (fd : Fd) (e : ServerEvent) : Decidable (e.Processes fd) := by
  cases e <;> unfold ServerEvent.Processes <;> infer_instance

/-- After a rejection no later message leads to an admission, unless the descriptor has been given
to a new connection. -/
def StaysRejected (fd : Fd) (trace : List ServerEvent) : Prop :=
  ∀ before between message after e,
    before ++ .rejected fd :: between ++ .processed fd message :: after ++ [e] <+: trace →
      e.Admits fd → .opened fd ∈ between ++ after

/-! ### The phases of a connection -/

/-- Where a connection is. -/
inductive Phase where
  | calm
  | rejected
  /-- A message has been processed after the rejection. -/
  | later
  /-- Such a message has been admitted. -/
  | broken
  deriving DecidableEq

namespace Phase

def next (fd : Fd) (phase : Phase) (e : ServerEvent) : Phase :=
  match phase with
  | .calm => if e = .rejected fd then .rejected else .calm
  | .rejected => if e = .opened fd then .calm else if e.Processes fd then .later else .rejected
  | .later => if e = .opened fd then .calm else if e.Admits fd then .broken else .later
  | .broken => .broken

/-- The phase at the end of a trace. -/
def after (fd : Fd) (phase : Phase) (trace : List ServerEvent) : Phase :=
  trace.foldl (next fd) phase

@[simp] theorem after_nil (fd : Fd) (phase : Phase) : phase.after fd [] = phase := rfl

@[simp] theorem after_cons (fd : Fd) (phase : Phase) (e : ServerEvent) (trace : List ServerEvent) :
    phase.after fd (e :: trace) = (phase.next fd e).after fd trace := rfl

@[simp] theorem after_append (fd : Fd) (phase : Phase) (trace trace' : List ServerEvent) :
    phase.after fd (trace ++ trace') = (phase.after fd trace).after fd trace' := by
  simp [after]

/-- What every event keeps, the trace keeps. -/
theorem after_induction {fd : Fd} {P : Phase → Prop} {trace : List ServerEvent}
    (h : ∀ e ∈ trace, ∀ phase, P phase → P (next fd phase e)) {phase : Phase} (hphase : P phase) :
    P (phase.after fd trace) := by
  induction trace generalizing phase with
  | nil => exact hphase
  | cons e trace ih =>
      exact ih (fun e' he' => h e' (List.mem_cons_of_mem e he')) (h e (by simp) phase hphase)

theorem broken_after (fd : Fd) (trace : List ServerEvent) :
    Phase.broken.after fd trace = .broken :=
  after_induction (P := (· = .broken)) (fun e _ phase h => by rw [h]; rfl) rfl

/-- Only a new connection makes the phase calm again. -/
theorem next_ne_calm {fd : Fd} {phase : Phase} {e : ServerEvent} (hphase : phase ≠ .calm)
    (he : e ≠ .opened fd) : phase.next fd e ≠ .calm := by
  cases phase with
  | calm => exact absurd rfl hphase
  | rejected => rw [next, if_neg he]; split <;> simp
  | later => rw [next, if_neg he]; split <;> simp
  | broken => simp [next]

theorem next_late {fd : Fd} {phase : Phase} {e : ServerEvent}
    (hphase : phase = .later ∨ phase = .broken) (he : e ≠ .opened fd) :
    phase.next fd e = .later ∨ phase.next fd e = .broken := by
  rcases hphase with rfl | rfl
  · rw [next, if_neg he]
    split
    · exact .inr rfl
    · exact .inl rfl
  · exact .inr rfl

theorem next_rejected (fd : Fd) (phase : Phase) : phase.next fd (.rejected fd) ≠ .calm := by
  cases phase <;> simp [next, ServerEvent.Admits, ServerEvent.Processes]

theorem next_processed (fd : Fd) {phase : Phase} (h : phase ≠ .calm) (message : Message) :
    phase.next fd (.processed fd message) = .later ∨
      phase.next fd (.processed fd message) = .broken := by
  cases phase with
  | calm => exact absurd rfl h
  | rejected => exact .inl (by simp [next, ServerEvent.Processes])
  | later => exact .inl (by simp [next, ServerEvent.Admits])
  | broken => exact .inr rfl

theorem next_admits {fd : Fd} {phase : Phase} {e : ServerEvent}
    (hphase : phase = .later ∨ phase = .broken) (he : e.Admits fd) :
    phase.next fd e = .broken := by
  rcases hphase with rfl | rfl
  · have hne : e ≠ .opened fd := by
      rintro rfl
      exact he
    rw [next, if_neg hne, if_pos he]
  · rfl

/-- **The phases tell.** A trace that does not end broken has nothing admitted after a
rejection. -/
theorem staysRejected {fd : Fd} {trace : List ServerEvent}
    (h : Phase.calm.after fd trace ≠ .broken) : StaysRejected fd trace := by
  rintro before between message after e ⟨rest, rfl⟩ hadmits
  by_contra hopened
  refine h ?_
  have hne : ∀ e ∈ between ++ after, e ≠ .opened fd := fun e he heq => hopened (heq ▸ he)
  simp only [after_append, after_cons, after_nil]
  have hrejected : ((((Phase.calm.after fd before).next fd (.rejected fd)).after fd between)) ≠
      .calm :=
    after_induction (P := (· ≠ .calm))
      (fun e he phase hphase => next_ne_calm hphase (hne e (List.mem_append_left _ he)))
      (next_rejected fd _)
  have hlate := next_processed fd hrejected message
  have hend := after_induction (P := fun phase => phase = .later ∨ phase = .broken)
    (fun e he phase hphase => next_late hphase (hne e (List.mem_append_right _ he))) hlate
  rw [next_admits hend hadmits, broken_after]

/-- A trace is broken by an admission. -/
theorem after_ne_broken {fd : Fd} {trace : List ServerEvent} (h : ∀ e ∈ trace, ¬ e.Admits fd)
    {phase : Phase} (hphase : phase ≠ .broken) : phase.after fd trace ≠ .broken := by
  refine after_induction (P := (· ≠ .broken)) (fun e he phase hphase => ?_) hphase
  cases phase with
  | calm => rw [next]; split <;> simp
  | rejected => rw [next]; split <;> [simp; split <;> simp]
  | later => rw [next, if_neg (h e he)]; split <;> simp
  | broken => exact absurd rfl hphase

/-- Nothing happens to a connection while another one is served. -/
theorem next_of_serving {clients : OrdMap Bytes Ptr} {fd fd' : Fd} {e : ServerEvent}
    (h : ServerState.Serving clients fd e) (hne : fd' ≠ fd) (phase : Phase) :
    phase.next fd' e = phase := by
  have hne' : fd ≠ fd' := Ne.symm hne
  cases h with
  | forwarded fd'' message hforwarded =>
      have hresponse : message ≠ .authenticationResponse ⟨true⟩ := by
        rintro rfl
        exact hforwarded
      cases phase <;> simp [next, ServerEvent.Admits, ServerEvent.Processes, hresponse]
  | _ => cases phase <;> simp [next, ServerEvent.Admits, ServerEvent.Processes, hne']

/-- What the hub sends admits nobody. -/
theorem next_of_forwarded {clients : OrdMap Bytes Ptr} {fd fd' : Fd} {message : Message}
    (h : Hub.IsForwarded clients message) (phase : Phase) :
    phase.next fd (.sent fd' message) = phase := by
  by_cases heq : fd = fd'
  · have hresponse : message ≠ .authenticationResponse ⟨true⟩ := by
      rintro rfl
      exact h
    cases phase <;> simp [next, ServerEvent.Admits, ServerEvent.Processes, hresponse]
  · exact next_of_serving (.forwarded fd' message h) heq phase

theorem after_of_neutral {fd : Fd} {phase : Phase} {trace : List ServerEvent}
    (h : ∀ e ∈ trace, phase.next fd e = phase) : phase.after fd trace = phase :=
  after_induction (P := (· = phase)) (fun e he phase' hphase => by rw [hphase]; exact h e he) rfl

end Phase

/-! ## A batch of chunks -/

namespace ServerState

/-! ### One frame -/

section

variable (md5 : Bytes → Bytes)

/-- What `authenticate` makes of a frame, where it returns: the user, or a refusal. -/
def reply (manager : AuthenticationManager) (frame : Bytes) : Option (Option Bytes) :=
  match Message.ofFrame frame with
  | some (.authenticationRequest request) => (manager.authenticate md5 request).toOption
  | _ => none

variable {server : ServerState ρ} {fd : Fd} {interactor : Interactor} {frame : Bytes}

/-- On an authenticated connection nothing is rejected. -/
theorem calm_processFrame (h : interactor.user.isSome) (frame : Bytes) :
    ∀ e ∈ (server.processFrame md5 fd interactor frame).events, Phase.calm.next fd e = .calm := by
  unfold processFrame
  split
  · simp
  · next message _ _ =>
    rw [processMessage_of_user md5 h, Outcome.andThen_of_ok rfl]
    intro e he
    rcases List.mem_append.mp he with he | he
    · simp only [Outcome.emit_events, List.mem_cons, List.not_mem_nil, or_false] at he
      rcases he with rfl | rfl <;> simp [Phase.next]
    · obtain ⟨fd', _, message, hsends⟩ := (ensures_onHub _ _).events e he
      exact Phase.next_of_forwarded hsends.isForwarded .calm

/-- A frame that `authenticate` does not return from ends the read. -/
theorem processFrame_of_no_reply (server : ServerState ρ) (fd : Fd)
    (hnone : interactor.user = none)
    (h : reply md5 server.authenticationManager frame = none) :
    (server.processFrame md5 fd interactor frame).fault ≠ none ∧
      (∀ e ∈ (server.processFrame md5 fd interactor frame).events, ¬ e.Admits fd) ∧
      (Phase.calm.after fd (server.processFrame md5 fd interactor frame).events = .calm ∨
        (server.processFrame md5 fd interactor frame).state.isOpenAt fd ≠ some true) := by
  unfold reply Message.ofFrame at h
  unfold processFrame
  cases hmessage : Message.deserialize (FrameBuffer.empty.write frame) with
  | error fault => exact ⟨by simp, by simp, .inl rfl⟩
  | ok answer =>
      obtain ⟨message, rest⟩ := answer
      rw [hmessage] at h
      simp only at h ⊢
      rw [processMessage_of_none md5 hnone, Outcome.andThen_of_ok rfl]
      cases message with
      | authenticationRequest request =>
          cases hanswer : server.authenticationManager.authenticate md5 request with
          | ok user => simp [hanswer, Except.toOption] at h
          | error e =>
              rw [Outcome.emit_state, authenticate_error md5 hanswer]
              refine ⟨by simp, by simp [ServerEvent.Admits], .inl ?_⟩
              simp [Phase.next]
      | _ =>
          rw [Outcome.emit_state, authenticate_other md5 (by simp)]
          exact ⟨by simp, by simp [ServerEvent.Admits], .inr (server.isOpenAt_close fd)⟩

/-- What a frame leads to that `authenticate` returns from: an answer in any case. -/
theorem processFrame_of_reply (server : ServerState ρ) (fd : Fd)
    (hnone : interactor.user = none) {user : Option Bytes}
    (h : reply md5 server.authenticationManager frame = some user) :
    ∃ message, (server.processFrame md5 fd interactor frame).fault = none ∧
      (server.processFrame md5 fd interactor frame).state.interactors[fd]? =
        some { interactor with user } ∧
      ((∃ name, user = some name ∧ (server.processFrame md5 fd interactor frame).events =
          [.processed fd message, .authenticated fd name,
            .sent fd (.authenticationResponse ⟨true⟩)]) ∨
        (user = none ∧ (server.processFrame md5 fd interactor frame).events =
            [.processed fd message, .rejected fd, .sent fd (.authenticationResponse ⟨true⟩)] ∧
          (server.processFrame md5 fd interactor frame).state.isOpenAt fd ≠ some true)) := by
  unfold reply Message.ofFrame at h
  unfold processFrame
  cases hmessage : Message.deserialize (FrameBuffer.empty.write frame) with
  | error fault => simp [hmessage] at h
  | ok answer =>
      obtain ⟨message, rest⟩ := answer
      rw [hmessage] at h
      simp only at h ⊢
      rw [processMessage_of_none md5 hnone, Outcome.andThen_of_ok rfl]
      refine ⟨message, ?_⟩
      cases message with
      | authenticationRequest request =>
          cases hanswer : server.authenticationManager.authenticate md5 request with
          | error e => simp [hanswer, Except.toOption] at h
          | ok user' =>
              obtain rfl : user' = user := by simpa [hanswer, Except.toOption] using h
              cases user' with
              | some name =>
                  rw [Outcome.emit_state, authenticate_some md5 hanswer]
                  exact ⟨rfl, by simp, .inl ⟨name, rfl, rfl⟩⟩
              | none =>
                  rw [Outcome.emit_state, authenticate_none md5 hanswer]
                  refine ⟨rfl, by simp, .inr ⟨rfl, rfl, ?_⟩⟩
                  rw [Outcome.emit_state, isOpenAt_write]
                  exact isOpenAt_close _ fd
      | _ => simp at h

/-! ### The chunks -/

/-- The connection is authenticated: nothing in the batch is rejected. -/
theorem calm_receives (h : server.interactors[fd]? = some interactor)
    (hframes : interactor.reader.frames = []) (huser : interactor.user.isSome)
    (bufs : List Bytes) :
    Phase.calm.after fd (Outcome.forEach (receive md5 fd) bufs server).events = .calm := by
  have hchunk : ∀ buf ∈ bufs, ∀ s : ServerState ρ,
      (∃ interactor, s.interactors[fd]? = some interactor ∧ interactor.reader.frames = [] ∧
        interactor.user.isSome) →
      (s.receive md5 fd buf).Ensures (fun s => ∃ interactor, s.interactors[fd]? = some interactor ∧
        interactor.reader.frames = [] ∧ interactor.user.isSome)
        (fun e => Phase.calm.next fd e = .calm) fun _ => True := by
    rintro buf - s ⟨interactor, h, hframes, huser⟩
    refine ⟨?_, ?_, fun _ _ => trivial⟩
    · obtain ⟨reader, user, hstate, hdrained, hsame⟩ := interactor_receive md5 h hframes buf
      exact ⟨_, hstate, hdrained, by rw [hsame huser]; exact huser⟩
    · rcases receive_cases md5 h hframes buf with ⟨fault, -, heq⟩ | ⟨hasFrame, reader, -,
        ⟨-, heq⟩ | ⟨frame, -, heq⟩⟩ <;> rw [heq]
      · simp
      · simp
      · exact calm_processFrame md5 (show (interactor.drained reader).user.isSome from huser) frame
  exact Phase.after_of_neutral
    (Outcome.Ensures.forEach hchunk ⟨interactor, h, hframes, huser⟩).events

/-- The connection has been refused, and no frame that follows in the batch gets an answer. -/
theorem receives_after_refusal (h : server.interactors[fd]? = some interactor)
    (hframes : interactor.reader.frames = []) (hnone : interactor.user = none) {bufs : List Bytes}
    (hreply : ∀ frame rest, interactor.reader.framesOf bufs = frame :: rest →
      reply md5 server.authenticationManager frame = none) {phase : Phase}
    (hphase : phase ≠ .broken) :
    phase.after fd (Outcome.forEach (receive md5 fd) bufs server).events ≠ .broken := by
  induction bufs generalizing server interactor with
  | nil => exact hphase
  | cons buf bufs ih =>
      rw [Outcome.forEach_cons]
      unfold FrameReader.framesOf at hreply
      rcases receive_cases md5 h hframes buf with ⟨fault, -, heq⟩ | ⟨hasFrame, reader, hwrite,
        ⟨hempty, heq⟩ | ⟨frame, hone, heq⟩⟩ <;> rw [heq]
      · exact hphase
      · rw [hwrite] at hreply
        simp only [hempty, List.nil_append] at hreply
        rw [Outcome.done_andThen]
        exact ih (server.get_withInteractor fd (interactor.drained reader)) rfl hnone hreply
      · rw [hwrite] at hreply
        simp only [hone, List.cons_append, List.nil_append] at hreply
        obtain ⟨hfault, hadmits, -⟩ := processFrame_of_no_reply md5
          (server.withInteractor fd (interactor.drained reader)) fd
          (show (interactor.drained reader).user = none from hnone) (hreply frame _ rfl)
        obtain ⟨fault, hfault⟩ := Option.ne_none_iff_exists'.mp hfault
        rw [Outcome.andThen_of_fault hfault]
        exact Phase.after_ne_broken hadmits hphase

/-! ### The condition -/

/-- Of the frames of a batch, the second gets no answer when the first is refused. -/
def RefusedLast (manager : AuthenticationManager) : List Bytes → Prop
  | first :: second :: _ => reply md5 manager first = some none → reply md5 manager second = none
  | _ => True

instance (manager : AuthenticationManager) (frames : List Bytes) :
    Decidable (RefusedLast md5 manager frames) := by
  unfold RefusedLast
  split <;> infer_instance

/-- A connection in another phase than `calm` has no open handler. -/
def Sound (server : ServerState ρ) (fd : Fd) (phase : Phase) : Prop :=
  phase ≠ .broken ∧ (phase = .calm ∨ server.isOpenAt fd ≠ some true)

/-- **A batch from a connection in good standing** leaves it so, or rejected with its handler
closed. -/
theorem sound_receives (h : server.interactors[fd]? = some interactor)
    (hframes : interactor.reader.frames = []) {bufs : List Bytes}
    (hlast : interactor.user = none →
      RefusedLast md5 server.authenticationManager (interactor.reader.framesOf bufs)) :
    (Outcome.forEach (receive md5 fd) bufs server).state.Sound fd
      (Phase.calm.after fd (Outcome.forEach (receive md5 fd) bufs server).events) := by
  cases huser : interactor.user with
  | some user =>
      rw [calm_receives md5 h hframes (by simp [huser])]
      exact ⟨by simp, .inl rfl⟩
  | none =>
      replace hlast := hlast huser
      induction bufs generalizing server interactor with
      | nil => exact ⟨by simp, .inl rfl⟩
      | cons buf bufs ih =>
          rw [Outcome.forEach_cons]
          unfold FrameReader.framesOf at hlast
          rcases receive_cases md5 h hframes buf with ⟨fault, -, heq⟩ | ⟨hasFrame, reader, hwrite,
            ⟨hempty, heq⟩ | ⟨frame, hone, heq⟩⟩ <;> rw [heq]
          · exact ⟨by simp, .inl rfl⟩
          · rw [hwrite] at hlast
            simp only [hempty, List.nil_append] at hlast
            rw [Outcome.done_andThen]
            exact ih (server.get_withInteractor fd (interactor.drained reader)) rfl huser hlast
          · rw [hwrite] at hlast
            simp only [hone, List.cons_append, List.nil_append] at hlast
            have hnone : (interactor.drained reader).user = none := huser
            cases hreply : reply md5 server.authenticationManager frame with
            | none =>
                obtain ⟨hfault, hadmits, hsound⟩ := processFrame_of_no_reply md5
                  (server.withInteractor fd (interactor.drained reader)) fd hnone hreply
                obtain ⟨fault, hfault⟩ := Option.ne_none_iff_exists'.mp hfault
                rw [Outcome.andThen_of_fault hfault]
                exact ⟨Phase.after_ne_broken hadmits (by simp), hsound⟩
            | some user =>
                obtain ⟨message, hfault, hstate, hcase⟩ := processFrame_of_reply md5
                  (server.withInteractor fd (interactor.drained reader)) fd hnone hreply
                rw [Outcome.andThen_of_ok hfault, Phase.after_append]
                rcases hcase with ⟨name, rfl, hevents⟩ | ⟨rfl, hevents, hclosed⟩
                · rw [hevents, show Phase.calm.after fd _ = .calm from rfl,
                    calm_receives md5 hstate rfl rfl bufs]
                  exact ⟨by simp, .inl rfl⟩
                · have hserved := (serves_processFrame md5
                    (server.withInteractor fd (interactor.drained reader)) fd
                    (interactor.drained reader) frame).state
                  have hrejected : Phase.calm.after fd [.processed fd message, .rejected fd,
                      .sent fd (.authenticationResponse ⟨true⟩)] = .rejected := by
                    simp [Phase.next, ServerEvent.Processes]
                  rw [hevents, hrejected]
                  refine ⟨receives_after_refusal md5 hstate rfl rfl (fun second rest hsecond => ?_)
                    (by simp), .inr ((serves_receives md5 _ fd bufs).state.closed hclosed)⟩
                  rw [hserved.authenticationManager]
                  have hrest : FrameReader.framesOf ⟨reader.len, reader.fbuf, []⟩ bufs =
                      second :: rest := hsecond
                  rw [hrest] at hlast
                  exact hlast hreply

/-! ## The loop -/

/-- In a read from a connection that is not authenticated yet, the second frame gets no answer when
the first is refused. -/
def NoSecondAnswer (server : ServerState ρ) : LoopStep ρ → Prop
  | .event event =>
      match server.handlers[event.fd]?, server.interactors[event.fd]? with
      | some (.socket handler), some interactor =>
          interactor.user = none → RefusedLast md5 server.authenticationManager
            (interactor.reader.framesOf (handler.read event.reads).2)
      | _, _ => True
  | _ => True

instance (server : ServerState ρ) (step : LoopStep ρ) :
    Decidable (server.NoSecondAnswer md5 step) := by
  unfold NoSecondAnswer
  split
  · split <;> infer_instance
  · infer_instance

/-! ### The invariant -/

/-- Every connection is in good standing, or its handler is closed. -/
structure InStanding (server : ServerState ρ) (trace : List ServerEvent) : Prop where
  drained : server.Drained
  sound : ∀ fd, server.Sound fd (Phase.calm.after fd trace)

variable {trace : List ServerEvent}

/-- What opens no handler and changes no phase keeps everybody's standing. -/
theorem InStanding.quiet (h : server.InStanding trace) {server' : ServerState ρ}
    {events : List ServerEvent} (hdrained : server'.Drained)
    (hopen : ∀ fd, server'.isOpenAt fd = some true → server.isOpenAt fd = some true)
    (hevents : ∀ e ∈ events, ∀ fd (phase : Phase), phase.next fd e = phase) :
    server'.InStanding (trace ++ events) where
  drained := hdrained
  sound fd := by
    rw [Phase.after_append, Phase.after_of_neutral fun e he => hevents e he fd _]
    obtain ⟨hne, hcase⟩ := h.sound fd
    exact ⟨hne, hcase.imp_right fun hclosed hopened => hclosed (hopen fd hopened)⟩

theorem InStanding.andThen {o : ServerOutcome ρ} {k : ServerState ρ → ServerOutcome ρ}
    (ho : o.state.InStanding (trace ++ o.events))
    (hk : ∀ s trace, InStanding s trace → (k s).state.InStanding (trace ++ (k s).events)) :
    (o.andThen k).state.InStanding (trace ++ (o.andThen k).events) := by
  cases hfault : o.fault with
  | some fault => rwa [Outcome.andThen_of_fault hfault]
  | none =>
      rw [Outcome.andThen_of_ok hfault, ← List.append_assoc]
      exact hk _ _ ho

theorem neutral_forwards {step : HubStep ρ} {e : ServerEvent} (h : server.Forwards step e) :
    ∀ fd (phase : Phase), phase.next fd e = phase := by
  obtain ⟨fd', _, message, hsends⟩ := h
  exact fun fd phase => Phase.next_of_forwarded hsends.isForwarded phase

theorem InStanding.onHub (h : server.InStanding trace) (step : HubStep ρ) :
    (server.onHub step).state.InStanding (trace ++ (server.onHub step).events) := by
  have hhub := server.ensures_onHub step
  refine h.quiet (h.drained.onHub step) (fun fd hopen => ?_)
    (fun e he => neutral_forwards (hhub.events e he))
  rw [hhub.state.isOpenAt] at hopen
  exact hopen

/-! ### The callbacks -/

theorem InStanding.handleInterrupt (h : server.InStanding trace)
    (configuration : Configuration ρ) :
    (server.handleInterrupt configuration).state.InStanding
      (trace ++ (server.handleInterrupt configuration).events) := by
  rw [handleInterrupt_state, handleInterrupt_events]
  unfold onInterrupt
  split
  · exact h.quiet h.drained (fun _ hopen => hopen) (by simp)
  · next manager _ =>
    have hloaded : InStanding { server with authenticationManager := manager } trace :=
      ⟨h.drained, h.sound⟩
    exact hloaded.onHub _

theorem InStanding.onClose (h : server.InStanding trace) (fd : Fd) :
    (server.onClose fd).state.InStanding (trace ++ (server.onClose fd).events) := by
  unfold ServerState.onClose
  split
  · exact h.quiet h.drained (fun _ hopen => hopen) (by simp)
  · refine InStanding.andThen (h.onHub _) fun s trace hs => ?_
    refine hs.quiet (fun fd' interactor hget => ?_) (fun _ hopen => hopen) ?_
    · rw [Outcome.emit_state] at hget
      exact hs.drained fd' interactor (OrdMap.get_of_erase hget).2
    · intro e he fd' phase
      obtain rfl := List.mem_singleton.mp he
      cases phase <;> simp [Phase.next, ServerEvent.Admits, ServerEvent.Processes]

theorem InStanding.removeClosedHandlers (h : server.InStanding trace) :
    server.removeClosedHandlers.state.InStanding (trace ++ server.removeClosedHandlers.events) := by
  unfold ServerState.removeClosedHandlers
  generalize server.findClosedHandlerFds = fds
  induction fds generalizing server trace with
  | nil => simpa using h
  | cons fd fds ih =>
      rw [Outcome.forEach_cons]
      refine InStanding.andThen ?_ fun s trace hs => ih hs
      unfold removeClosedHandler
      split
      · simpa using h
      · have herased : InStanding { server with handlers := server.handlers.erase fd } trace := by
          have hquiet : InStanding { server with handlers := server.handlers.erase fd }
              (trace ++ []) := by
            refine h.quiet h.drained (fun fd' hopen => ?_) (by simp)
            unfold isOpenAt at hopen ⊢
            rw [OrdMap.get_erase] at hopen
            split at hopen
            · cases hopen
            · exact hopen
          simpa using hquiet
        simp only
        split
        · simpa using herased
        · exact herased.onClose fd

theorem InStanding.addHandler (h : server.InStanding trace) (client : Client) :
    (server.addHandler client).state.InStanding
      (trace ++ (server.addHandler client).events) where
  drained := by
    have hregistered : (server.withHandler client.fd (.socket .new)).Drained := h.drained
    exact hregistered.onOpen client
  sound := by
    intro fd
    rw [Phase.after_append]
    obtain ⟨hne, hcase⟩ := h.sound fd
    have hevents : (server.addHandler client).events = [.opened client.fd] := rfl
    rw [hevents, Phase.after_cons, Phase.after_nil]
    by_cases hfd : client.fd = fd
    · -- The descriptor has been given to a new connection.
      have hcalm : (Phase.calm.after fd trace).next fd (.opened client.fd) = .calm := by
        rw [hfd]
        cases hphase : Phase.calm.after fd trace with
        | broken => exact absurd hphase hne
        | _ => simp [Phase.next]
      rw [hcalm]
      exact ⟨by simp, .inl rfl⟩
    · have hsame : (Phase.calm.after fd trace).next fd (.opened client.fd) =
          Phase.calm.after fd trace := by
        cases Phase.calm.after fd trace <;>
          simp [Phase.next, ServerEvent.Admits, ServerEvent.Processes, hfd]
      have hopen : (server.addHandler client).state.isOpenAt fd = server.isOpenAt fd := by
        show (server.withHandler client.fd (.socket .new)).isOpenAt fd = _
        rw [isOpenAt_withHandler, if_neg hfd]
      rw [hsame]
      exact ⟨hne, hcase.imp_right fun hclosed => by rwa [hopen]⟩

theorem InStanding.withHandler (h : server.InStanding trace) {fd : Fd} {handler handler' : Handler}
    (hhandler : server.handlers[fd]? = some handler)
    (hopen : handler'.isOpen = true → handler.isOpen = true) :
    (server.withHandler fd handler').InStanding trace := by
  have hquiet : (server.withHandler fd handler').InStanding (trace ++ []) :=
    h.quiet h.drained (fun _ => isOpenAt_of_withHandler hhandler hopen) (by simp)
  rwa [List.append_nil] at hquiet

theorem InStanding.handleWrite (h : server.InStanding trace) (fd : Fd)
    (results : List WriteResult) (pending : Option WriteResult) :
    (server.handleWrite fd results pending).state.InStanding
      (trace ++ (server.handleWrite fd results pending).events) := by
  unfold ServerState.handleWrite
  split
  · next handler hhandler =>
    have hwritten : (server.withHandler fd
        (.socket (handler.write results pending).1)).InStanding trace :=
      h.withHandler hhandler SocketHandler.isOpen_of_write
    simp only [catchStdException_state, catchStdException_events]
    split <;> simpa using hwritten
  · simpa using h

/-! ### Events -/

/-- A batch is read from a connection in good standing. -/
theorem InStanding.handleRead (h : server.InStanding trace) {fd : Fd} {handler : SocketHandler}
    (hhandler : server.handlers[fd]? = some (.socket handler)) {results : List ReadResult}
    (hlast : ∀ interactor, server.interactors[fd]? = some interactor → interactor.user = none →
      RefusedLast md5 server.authenticationManager
        (interactor.reader.framesOf (handler.read results).2)) :
    (server.handleRead md5 fd handler results).1.state.InStanding
      (trace ++ (server.handleRead md5 fd handler results).1.events) := by
  have hread : (server.withHandler fd (.socket (handler.read results).1)).InStanding trace :=
    h.withHandler hhandler SocketHandler.isOpen_of_read
  unfold ServerState.handleRead
  simp only [catchStdException_state, catchStdException_events]
  split
  · simpa using hread
  split
  · simpa using hread
  · next hbufs =>
    -- Something has been read, so the handler was open and the connection in good standing.
    have hopen : server.isOpenAt fd = some true := by
      rw [isOpenAt, hhandler]
      by_contra hclosed
      have hempty : (handler.read results).2 = [] := by
        rw [SocketHandler.read_of_closed (by simpa [Handler.isOpen] using hclosed)]
      exact hbufs (by simp [hempty])
    have hcalm : Phase.calm.after fd trace = .calm :=
      (h.sound fd).2.resolve_right (fun hclosed => hclosed hopen)
    refine ⟨hread.drained.onRead md5 fd _, fun fd' => ?_⟩
    have hserved := (server.withHandler fd (.socket (handler.read results).1)).serves_onRead md5 fd
      (handler.read results).2
    rw [Phase.after_append]
    by_cases hfd : fd' = fd
    · subst hfd
      rw [hcalm]
      unfold ServerState.onRead
      simp only
      cases hget : server.interactors[fd']? with
      | none => exact ⟨by simp, .inl rfl⟩
      | some interactor =>
          have hconnected : (server.withHandler fd'
              (.socket (handler.read results).1)).interactors[fd']? = some interactor := hget
          exact sound_receives md5 hconnected (h.drained fd' interactor hget)
            (hlast interactor hget)
    · rw [Phase.after_of_neutral fun e he => Phase.next_of_serving (hserved.events e he) hfd _]
      obtain ⟨hne, hcase⟩ := hread.sound fd'
      exact ⟨hne, hcase.imp_right fun hclosed => by rwa [hserved.state.isOpenAt fd' hfd]⟩

theorem InStanding.handleEvent (h : server.InStanding trace) {event : PollEvent}
    (hstep : server.NoSecondAnswer md5 (.event event)) :
    (server.handleEvent md5 event).state.InStanding
      (trace ++ (server.handleEvent md5 event).events) := by
  unfold ServerState.handleEvent
  split
  · simpa using h
  · split
    · split
      · simpa using h
      · exact h.addHandler _
    · simpa using h
  · next handler hhandler =>
    refine InStanding.andThen ?_ fun s trace hs => ?_
    · cases event.readable with
      | true =>
          refine h.handleRead md5 hhandler fun interactor hget => ?_
          simp only [NoSecondAnswer, hhandler, hget] at hstep
          exact hstep
      | false =>
          have hsame : server.InStanding (trace ++ []) := by rwa [List.append_nil]
          exact hsame
    · split
      · exact hs.handleWrite event.fd _ _
      · simpa using hs

theorem InStanding.loopStep (h : server.InStanding trace) {step : LoopStep ρ}
    (hstep : server.NoSecondAnswer md5 step) :
    (server.loopStep md5 step).state.InStanding (trace ++ (server.loopStep md5 step).events) := by
  cases step with
  | interrupt configuration => exact h.handleInterrupt configuration
  | event event => exact h.handleEvent md5 hstep
  | sweep => exact h.removeClosedHandlers

/-! ### Runs -/

theorem inStanding_new (handlers : OrdMap Fd Handler)
    (authenticationManager : AuthenticationManager)
    (authorizationManager : AuthorizationManager ρ) :
    (new handlers authenticationManager authorizationManager).InStanding [] where
  drained fd interactor h := by simp [new] at h
  sound _ := ⟨by simp, .inl rfl⟩

/-- **A rejected connection stays rejected**, along every run of the loop in which no refused
request is followed, in the same read, by one that gets an answer. -/
theorem staysRejected_eventLoop (handlers : OrdMap Fd Handler)
    (authenticationManager : AuthenticationManager)
    (authorizationManager : AuthorizationManager ρ) (turns : List (Turn ρ))
    (h : Outcome.Meets (loopStep md5) (NoSecondAnswer md5) (turns.flatMap Turn.steps)
      (new handlers authenticationManager authorizationManager)) (fd : Fd) :
    StaysRejected fd ((new handlers authenticationManager authorizationManager).eventLoop md5
      turns).events := by
  have hstep : ∀ (step : LoopStep ρ) (s : ServerState ρ) (past : List ServerEvent),
      s.InStanding past → s.NoSecondAnswer md5 step →
        (s.loopStep md5 step).state.InStanding (past ++ (s.loopStep md5 step).events) :=
    fun step s past hs hok => hs.loopStep md5 hok
  have hend := Outcome.Meets.history hstep
    (inStanding_new handlers authenticationManager authorizationManager) h
  rw [eventLoop, Outcome.forEach_forEach]
  exact Phase.staysRejected (hend.sound fd).1

end

/-- A refused client is gone when it sends again; its descriptor then serves a new connection. -/
theorem staysRejected_of_one_request :
    StaysRejected 4 (listening.eventLoop zeroDigest
      [⟨none, [accepted]⟩, ⟨none, [received [badLogin], received [login]]⟩,
        ⟨none, [accepted]⟩, ⟨none, [received [login, login]]⟩]).events :=
  staysRejected_eventLoop zeroDigest (Std.ExtTreeMap.insert ∅ 3 (.listener true)) (.new none)
    (.new none []) [⟨none, [accepted]⟩, ⟨none, [received [badLogin], received [login]]⟩,
      ⟨none, [accepted]⟩, ⟨none, [received [login, login]]⟩] (by decide +kernel) 4

/-- Two requests are read at once: the first is refused, and the second gets the client in. -/
theorem refused_client_gets_in :
    ¬ StaysRejected 4 (listening.eventLoop zeroDigest
      [⟨none, [accepted]⟩, ⟨none, [received [badLogin, login]]⟩]).events := by
  have htrace : (listening.eventLoop zeroDigest
      [⟨none, [accepted]⟩, ⟨none, [received [badLogin, login]]⟩]).events =
      [.opened 4, .processed 4 (.authenticationRequest ⟨ascii "x", []⟩)] ++
        .rejected 4 :: [.sent 4 (.authenticationResponse ⟨true⟩)] ++
        .processed 4 (.authenticationRequest ⟨ascii "none", []⟩) :: [] ++
        [.authenticated 4 (ascii "nobody")] ++
        [.sent 4 (.authenticationResponse ⟨true⟩), .closed 4] := by
    decide +kernel
  intro h
  have hopened := h _ _ _ _ _ ⟨_, htrace.symm⟩ rfl
  simp at hopened

end ServerState

end SquawkBus.Server
