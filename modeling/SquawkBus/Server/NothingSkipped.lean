import SquawkBus.Messages.Malformed
import SquawkBus.Server.OwnSession

/-!
# What a connection reads

A `std::exception` that a message leads to is caught in `handle_read`, and so it ends the loop of
`on_read` over what has been read from the socket: the chunks behind the one it happened in are
gone, and the connection goes on without them. The reader gets every byte as long as only the last
chunk of a read leads to an exception (`RaisesNothing` says it of the others), or the connection is
closed.
-/

namespace SquawkBus.Serialization.FrameReader

/-! ## The reader -/

/-- The reader after the chunks, when each frame is read as soon as it is there. -/
def feed : FrameReader → List Bytes → Except Fault FrameReader
  | reader, [] => .ok reader
  | reader, buf :: bufs => do
      let (_, reader) ← reader.write buf
      feed { reader with frames := [] } bufs

/-- A write fails only by reading past the end of the buffer. -/
theorem write_eq_error {reader : FrameReader} {buf : Bytes} {fault : Fault}
    (h : reader.write buf = .error fault) : fault = .undefined := by
  have hlength : ∀ reader : FrameReader, reader.takeLength = .error fault → fault = .undefined := by
    intro reader h
    unfold takeLength at h
    split at h
    · cases hsize : FrameStream.getSize reader.fbuf with
      | error fault' =>
          rw [hsize] at h
          cases h
          exact Messages.failsByReading_getSize _ _ hsize
      | ok answer =>
          rw [hsize] at h
          cases h
    · cases h
  have hframe : ∀ reader : FrameReader, reader.takeFrame = .error fault → fault = .undefined := by
    intro reader h
    unfold takeFrame at h
    split at h
    · cases h
    · next len _ =>
      split at h
      · cases hread : reader.fbuf.read len with
        | error fault' =>
            rw [hread] at h
            cases h
            exact (FrameBuffer.read_eq_error_iff.mp hread).1
        | ok answer =>
            rw [hread] at h
            cases h
      · cases h
  unfold write at h
  cases hfirst : takeLength { reader with fbuf := reader.fbuf.write buf } with
  | error fault' =>
      rw [hfirst] at h
      cases h
      exact hlength _ hfirst
  | ok first =>
      rw [hfirst] at h
      cases hsecond : first.takeFrame with
      | error fault' =>
          simp only [bind, Except.bind, hsecond] at h
          cases h
          exact hframe _ hsecond
      | ok second =>
          simp only [bind, Except.bind, hsecond] at h
          cases h

end SquawkBus.Serialization.FrameReader

namespace SquawkBus.Server

open SquawkBus.Io SquawkBus.Messages SquawkBus.Serialization

/-! ## What the hub handles -/

variable {ρ : Type} [RegexEngine ρ]

/-- The hub handles messages of this class, and the pattern is not a new one that is malformed. -/
def Hub.Handles (hub : Hub ρ) : Message → Prop
  | .subscriptionRequest _ | .multicastData _ | .unicastData _ => True
  | .notificationRequest request =>
      request.isAdd = true → request.topicPattern ∉ hub.notificationManager.notifications →
        (RegexEngine.compile request.topicPattern : Option ρ).isSome
  | _ => False

theorem Hub.fault_onMessage_iff {identify : Ptr → Identity} {hub : Hub ρ} {i : Ptr}
    {message : Message} :
    (hub.step identify (.message i message)).fault = none ↔ hub.Handles message := by
  cases message with
  | notificationRequest request =>
      show (hub.notificationManager.onListen identify i request
        hub.subscriptionManager).fault = none ↔ _
      unfold NotificationManager.onListen Handles
      cases hadd : request.isAdd with
      | false => simp [hadd]
      | true =>
          simp only [hadd, if_true, true_implies]
          rcases NotificationManager.addListener_cases identify hub.notificationManager i
            request.topicPattern hub.subscriptionManager with ⟨hnone, hregex, heq⟩ |
            ⟨regex, hnone, hregex, hfault, -⟩ | ⟨⟨listeners, hrow⟩, hfault, -⟩
          · have hnew : request.topicPattern ∉ hub.notificationManager.notifications := by
              rw [OrdMap.mem_iff_get, hnone]
              simp
            simp [heq, hregex, hnew]
          · simp [hfault, hregex]
          · have hknown : request.topicPattern ∈ hub.notificationManager.notifications :=
              OrdMap.mem_iff_get.mpr ⟨listeners, hrow⟩
            simp [hfault, hknown]
  | subscriptionRequest _ | multicastData _ | unicastData _ => exact ⟨fun _ => trivial, fun _ => rfl⟩
  | _ => simp [step, onMessage, Handles]

namespace ServerState

variable (md5 : Bytes → Bytes)

/-! ## The statement -/

/-- The chunks that `handle_read` passes to the reader of the connection: each round of the loop of
`on_read` begins with that. -/
def passed (fd : Fd) (handler : SocketHandler) (results : List ReadResult)
    (server : ServerState ρ) : List Bytes :=
  match server.interactors[fd]? with
  | none => []
  | some _ =>
      (Outcome.rounds (receive md5 fd) (handler.read results).2
        (server.withHandler fd (.socket (handler.read results).1))).map (·.2)

/-- All that is read from the socket is passed to the reader of the connection, in order; the
reader is then where a reader is that has been given all of it. -/
structure ReadsAll (server : ServerState ρ) (fd : Fd) (handler : SocketHandler)
    (results : List ReadResult) : Prop where
  passed : server.passed md5 fd handler results = (handler.read results).2
  reader : ∃ interactor interactor', server.interactors[fd]? = some interactor ∧
    (server.handleRead md5 fd handler results).1.state.interactors[fd]? = some interactor' ∧
      interactor.reader.feed (handler.read results).2 = .ok interactor'.reader

/-- **Received bytes are never skipped on a live connection**: when `handle_read` has returned, with
an exception caught in it or without, the connection is closed or has read all there was. -/
def NothingSkipped (server : ServerState ρ) : LoopStep ρ → Prop
  | .event event => ∀ handler, server.handlers[event.fd]? = some (.socket handler) →
      event.readable = true →
        (server.handleRead md5 event.fd handler event.reads).1.fault = none →
        (server.handleRead md5 event.fd handler event.reads).1.state.isOpenAt event.fd = some true →
          server.ReadsAll md5 event.fd handler event.reads
  | _ => True

/-- No exception comes of the message: the check of a password does not throw, and of a client, the
hub handles the message and sends nothing for it that is too long to be serialized. -/
def Handles (server : ServerState ρ) (interactor : Interactor) (message : Message) : Prop :=
  match interactor.user with
  | none => ∀ request, message = .authenticationRequest request →
      ∃ answer, server.authenticationManager.authenticate md5 request = .ok answer
  | some _ => server.hub.Handles message ∧
      ∀ i m, Hub.Sends server.identify server.hub (.message interactor.address message) i m →
        Sendable m

/-- No exception comes of the frame that a chunk completes on an open connection. -/
def RaisesNothing (fd : Fd) (server : ServerState ρ) (buf : Bytes) : Prop :=
  server.isOpenAt fd = some true →
    ∀ interactor hasFrame reader, server.interactors[fd]? = some interactor →
      interactor.reader.write buf = .ok (hasFrame, reader) →
        ∀ frame ∈ reader.frames, ∀ message ∈ Message.ofFrame frame,
          Handles md5 (server.withInteractor fd (interactor.drained reader))
            (interactor.drained reader) message

/-- No exception comes of a chunk that others of the same read follow. -/
def Uninterrupted (server : ServerState ρ) : LoopStep ρ → Prop
  | .event event => ∀ handler, server.handlers[event.fd]? = some (.socket handler) →
      event.readable = true →
        Outcome.Meets (receive md5 event.fd) (RaisesNothing md5 event.fd)
          (handler.read event.reads).2.dropLast
          (server.withHandler event.fd (.socket (handler.read event.reads).1))
  | _ => True

/-! ## Where exceptions come from -/

variable {md5} {server : ServerState ρ} {fd : Fd} {interactor : Interactor}

/-- A call that the hub makes fails, if it does not send what is too long, only on what is not
there. -/
theorem not_caught_perform (server : ServerState ρ) {call : Call}
    (h : ∀ i m, call = .send i m → Sendable m) :
    (server.perform call).Ensures (Queued server) (fun _ => True) fun fault => ¬ Caught fault := by
  unfold perform
  split
  · exact Outcome.ensures_fail (.refl server) id
  · cases call with
    | user _ =>
        simp only
        split
        · exact Outcome.ensures_done (.refl server)
        · exact Outcome.ensures_fail (.refl server) id
    | send i message =>
        obtain ⟨hfits, hlength⟩ := h i message rfl
        simp only [send, Message.toVector_serialize hfits hlength]
        exact Outcome.ensures_emit (server.queued_write _ _) (by simp)
    | str _ | host _ | id _ => exact Outcome.ensures_done (.refl server)

/-- **No exception comes of a message that is handled.** -/
theorem not_caught_processMessage {message : Message}
    (h : server.Handles md5 interactor message) {fault : Fault}
    (hfault : (server.processMessage md5 fd interactor message).fault = some fault) :
    ¬ Caught fault := by
  cases huser : interactor.user with
  | none =>
      simp only [Handles, huser] at h
      rw [processMessage_of_none md5 huser, Outcome.andThen_of_ok rfl, Outcome.emit_state] at hfault
      cases message with
      | authenticationRequest request =>
          obtain ⟨answer, hanswer⟩ := h request rfl
          cases answer with
          | some user =>
              rw [authenticate_some md5 hanswer] at hfault
              cases hfault
          | none =>
              rw [authenticate_none md5 hanswer] at hfault
              cases hfault
      | _ =>
          rw [authenticate_other md5 (by simp)] at hfault
          cases hfault
          exact id
  | some user =>
      simp only [Handles, huser] at h
      obtain ⟨hhandles, hsends⟩ := h
      rw [processMessage_of_user md5 (by simp [huser]), Outcome.andThen_of_ok rfl,
        Outcome.emit_state] at hfault
      have hhub : (server.onHub (.message interactor.address message)).Ensures _ (fun _ => True)
          fun fault => ¬ Caught fault :=
        onHub_rule (fun call hmem s _ => s.not_caught_perform fun i m heq =>
          hsends i m ((Hub.step_calls hmem).2 i m heq)) fun e he => by
            rw [Hub.fault_onMessage_iff.mpr hhandles] at he
            cases he
      exact hhub.fault fault hfault

theorem not_caught_processFrame {frame : Bytes}
    (h : ∀ message ∈ Message.ofFrame frame, server.Handles md5 interactor message) {fault : Fault}
    (hfault : (server.processFrame md5 fd interactor frame).fault = some fault) :
    ¬ Caught fault := by
  unfold processFrame at hfault
  split at hfault
  · next fault' herror =>
    cases hfault
    rcases deserialize_eq_error herror with rfl | rfl
    · exact id
    · simp [Caught, Exn.isStdException]
  · next message rest hmessage =>
    refine not_caught_processMessage (h message ?_) hfault
    unfold Message.ofFrame
    rw [hmessage]
    rfl

/-- **No exception comes of a chunk whose frame is handled.** -/
theorem RaisesNothing.not_caught {buf : Bytes} (h : RaisesNothing md5 fd server buf)
    (hopen : server.isOpenAt fd = some true) (hget : server.interactors[fd]? = some interactor)
    (hframes : interactor.reader.frames = []) {fault : Fault}
    (hfault : (server.receive md5 fd buf).fault = some fault) : ¬ Caught fault := by
  rcases receive_cases md5 hget hframes buf with ⟨fault', hwrite, heq⟩ |
    ⟨hasFrame, reader, hwrite, ⟨-, heq⟩ | ⟨frame, hframe, heq⟩⟩ <;> rw [heq] at hfault
  · cases hfault
    obtain rfl := FrameReader.write_eq_error hwrite
    exact id
  · cases hfault
  · exact not_caught_processFrame
      (h hopen interactor hasFrame reader hget hwrite frame (by simp [hframe])) hfault

/-! ## The loop over the chunks -/

/-- There is an interactor, and no reader has frames left. -/
def Attended (fd : Fd) (server : ServerState ρ) : Prop :=
  server.Drained ∧ ∃ interactor, server.interactors[fd]? = some interactor

theorem Attended.receive (h : Attended fd server) (buf : Bytes) :
    Attended fd (server.receive md5 fd buf).state := by
  obtain ⟨hdrained, interactor, hget⟩ := h
  obtain ⟨reader, user, hstate, -⟩ := interactor_receive md5 hget (hdrained fd interactor hget) buf
  exact ⟨hdrained.receive md5 fd buf, _, hstate⟩

/-- **A read is complete, or the connection is closed**, or the program ends. -/
theorem Attended.rounds_eq (h : Attended fd server) {bufs : List Bytes}
    (hquiet : Outcome.Meets (ServerState.receive md5 fd) (RaisesNothing md5 fd) bufs.dropLast server)
    (hcaught : ∀ fault, (Outcome.forEach (ServerState.receive md5 fd) bufs server).fault =
      some fault → Caught fault)
    (hopen : (Outcome.forEach (ServerState.receive md5 fd) bufs server).state.isOpenAt fd = some true) :
    (Outcome.rounds (ServerState.receive md5 fd) bufs server).map (·.2) = bufs := by
  refine (Outcome.rounds_eq_or (Attended fd)
    (fun s fault => s.isOpenAt fd = some true → ¬ Caught fault)
    (fun s buf hs => hs.receive buf) ?_ h hquiet).resolve_right ?_
  · rintro s buf fault ⟨hdrained, interactor, hget⟩ hbuf hfault hafter
    -- What is open afterwards was open before.
    have hbefore : s.isOpenAt fd = some true := by
      by_contra hclosed
      exact (s.serves_receive md5 fd buf).state.closed hclosed hafter
    exact hbuf.not_caught hbefore hget (hdrained fd interactor hget) hfault
  · rintro ⟨fault, hfault, hnot⟩
    exact hnot hopen (hcaught fault hfault)

/-- The reader after a loop that has come to all its rounds. -/
theorem Attended.feed (h : Attended fd server) (hget : server.interactors[fd]? = some interactor)
    {bufs : List Bytes}
    (hall : (Outcome.rounds (ServerState.receive md5 fd) bufs server).map (·.2) = bufs)
    (hcaught : ∀ fault, (Outcome.forEach (ServerState.receive md5 fd) bufs server).fault =
      some fault → Caught fault) :
    ∃ interactor', (Outcome.forEach (ServerState.receive md5 fd) bufs server).state.interactors[fd]? =
        some interactor' ∧ interactor.reader.feed bufs = .ok interactor'.reader := by
  induction bufs generalizing server interactor with
  | nil => exact ⟨interactor, hget, rfl⟩
  | cons buf bufs ih =>
      -- The round writes the chunk to the reader, and leaves it without frames.
      have hround : (∀ fault, (server.receive md5 fd buf).fault = some fault → Caught fault) →
          ∃ hasFrame reader user, interactor.reader.write buf = .ok (hasFrame, reader) ∧
            (server.receive md5 fd buf).state.interactors[fd]? =
              some { interactor.drained reader with user } := by
        intro hcaught
        rcases receive_cases md5 hget (h.1 fd interactor hget) buf with ⟨fault, hwrite, heq⟩ |
          ⟨hasFrame, reader, hwrite, ⟨-, heq⟩ | ⟨frame, -, heq⟩⟩
        · obtain rfl := FrameReader.write_eq_error hwrite
          exact (hcaught .undefined (by rw [heq]; rfl)).elim
        · refine ⟨hasFrame, reader, interactor.user, hwrite, ?_⟩
          rw [heq]
          exact get_withInteractor _ _ _
        · obtain ⟨user, hstate, -⟩ := interactor_processFrame md5
            (server.get_withInteractor fd (interactor.drained reader)) frame
          exact ⟨hasFrame, reader, user, hwrite, by rw [heq]; exact hstate⟩
      rw [Outcome.forEach_cons] at hcaught ⊢
      cases hfault : (server.receive md5 fd buf).fault with
      | none =>
          rw [Outcome.andThen_of_ok hfault] at hcaught ⊢
          obtain ⟨hasFrame, reader, user, hwrite, hstate⟩ := hround (by simp [hfault])
          rw [Outcome.rounds, hfault, List.map_cons] at hall
          obtain ⟨interactor', hget', hfeed⟩ :=
            ih (h.receive buf) hstate (List.cons.inj hall).2 hcaught
          refine ⟨interactor', hget', ?_⟩
          rw [FrameReader.feed, hwrite]
          exact hfeed
      | some fault =>
          rw [Outcome.andThen_of_fault hfault] at hcaught ⊢
          obtain ⟨hasFrame, reader, user, hwrite, hstate⟩ := hround hcaught
          rw [Outcome.rounds, hfault, List.map_cons] at hall
          obtain rfl : [] = bufs := (List.cons.inj hall).2
          refine ⟨_, hstate, ?_⟩
          rw [FrameReader.feed, hwrite]
          rfl

/-- What `catchStdException` lets return has returned or thrown what is caught. -/
theorem caught_of_catchStdException {outcome : ServerOutcome ρ}
    (h : (catchStdException outcome).fault = none) :
    ∀ fault, outcome.fault = some fault → Caught fault := by
  intro fault hfault
  unfold catchStdException at h
  rw [hfault] at h
  cases fault with
  | thrown e =>
      simp only at h
      split at h
      · next hcaught => exact hcaught
      · cases h
  | _ => cases hfault.symm.trans h

/-- **A read without an exception before its last chunk** is complete. -/
theorem Attended.readsAll (h : Attended fd server) {handler : SocketHandler}
    {results : List ReadResult}
    (hquiet : Outcome.Meets (ServerState.receive md5 fd) (RaisesNothing md5 fd)
      (handler.read results).2.dropLast (server.withHandler fd (.socket (handler.read results).1)))
    (hreturns : (server.handleRead md5 fd handler results).1.fault = none)
    (hopen : (server.handleRead md5 fd handler results).1.state.isOpenAt fd = some true) :
    server.ReadsAll md5 fd handler results := by
  have hread : Attended fd (server.withHandler fd (.socket (handler.read results).1)) := h
  obtain ⟨interactor, hget⟩ := h.2
  have hlives : handler.killedByRead results = false := by
    cases hkilled : handler.killedByRead results with
    | false => rfl
    | true =>
        rw [handleRead_eq, hkilled] at hreturns
        cases hreturns
  have hhandled : (server.handleRead md5 fd handler results).1 = catchStdException
      (Outcome.forEach (ServerState.receive md5 fd) (handler.read results).2
        (server.withHandler fd (.socket (handler.read results).1))) := by
    rw [handleRead_eq, hlives, passOn_of_lives]
    unfold onRead
    simp only [hget]
  rw [hhandled] at hreturns hopen
  rw [catchStdException_state] at hopen
  have hcaught := caught_of_catchStdException hreturns
  have hall := hread.rounds_eq hquiet hcaught hopen
  refine ⟨?_, ?_⟩
  · unfold ServerState.passed
    rw [hget]
    exact hall
  · obtain ⟨interactor', hget', hfeed⟩ := hread.feed hget hall hcaught
    exact ⟨interactor, interactor', hget, by rw [hhandled, catchStdException_state]; exact hget',
      hfeed⟩

/-! ## The invariant -/

/-- Every connection has an interactor, and no reader has frames left. -/
structure AllAttended (server : ServerState ρ) : Prop where
  drained : server.Drained
  interactor : ∀ fd : Fd, server.isListenerAt fd = some false →
    (server.interactors[fd]?).isSome

variable {server' : ServerState ρ}

theorem SameConnections.isSome (h : SameConnections server server') (fd : Fd) :
    (server'.interactors[fd]?).isSome = (server.interactors[fd]?).isSome := by
  rw [← Option.isSome_map (f := Interactor.client), h.interactors, Option.isSome_map]

theorem AllAttended.congr (h : AllAttended server) (hsame : SameConnections server server')
    (hdrained : server'.Drained) : AllAttended server' := by
  refine ⟨hdrained, fun fd hsocket => ?_⟩
  rw [hsame.isSome]
  exact h.interactor fd ((hsame.handlers fd).symm.trans hsocket)

theorem Drained.handleInterrupt (h : server.Drained) (configuration : Configuration ρ) :
    (server.handleInterrupt configuration).state.Drained := by
  rw [handleInterrupt_state]
  refine onInterrupt_keeps h fun manager => ?_
  have hloaded : Drained { server with authenticationManager := manager } := h
  exact hloaded.onHub _

theorem Drained.addHandler (h : server.Drained) (client : Client) :
    (server.addHandler client).state.Drained := by
  have hregistered : (server.withHandler client.fd (.socket .new)).Drained := h
  exact hregistered.onOpen client

variable (md5) in
theorem Drained.handleEvent (h : server.Drained) (event : PollEvent) :
    (server.handleEvent md5 event).state.Drained := by
  refine handleEvent_keeps md5 h (fun _ client _ _ => h.addHandler client) (fun handler _ => ?_)
    fun s hs => handleWrite_keeps hs fun _ _ => hs
  have hread : (server.withHandler event.fd (.socket (handler.read event.reads).1)).Drained := h
  rw [handleRead_eq, catchStdException_state]
  exact passOn_keeps md5 (P := Drained) hread (hread.onRead md5 event.fd _)

theorem Drained.removeClosedHandler (h : server.Drained) (fd : Fd) :
    (server.removeClosedHandler fd).state.Drained :=
  removeClosedHandler_keeps (fun _ => h) h fun _ hs => hs.onClose fd

theorem allAttended_new {handlers : OrdMap Fd Handler}
    (hlisteners : ∀ entry ∈ handlers.toList, entry.2.isListener)
    (authenticationManager : AuthenticationManager)
    (authorizationManager : AuthorizationManager ρ) :
    AllAttended (new handlers authenticationManager authorizationManager) := by
  refine ⟨fun fd interactor hget => by simp [new] at hget, fun fd hsocket => ?_⟩
  obtain ⟨interactor, hget, -⟩ :=
    (settled_new hlisteners authenticationManager authorizationManager).1.sockets fd hsocket
  rw [hget]
  rfl

theorem AllAttended.addHandler (h : AllAttended server) (client : Client) :
    AllAttended (server.addHandler client).state := by
  refine ⟨h.drained.addHandler client, fun fd hsocket => ?_⟩
  change (server.withHandler client.fd (.socket .new)).isListenerAt fd = some false at hsocket
  rw [isListenerAt_withHandler] at hsocket
  -- There is an interactor already, or one is made.
  cases hget : server.interactors[fd]? with
  | some interactor =>
      have hkept : (server.addHandler client).state.interactors[fd]? = some interactor :=
        get_onOpen_of_get hget
      rw [hkept]
      rfl
  | none =>
      split at hsocket
      · next hfd =>
        subst hfd
        have hnone : (server.withHandler client.fd (.socket .new)).interactors[client.fd]? = none :=
          hget
        have hmade := get_onOpen_of_new hnone client.fd
        rw [if_pos rfl] at hmade
        exact Option.isSome_of_eq_some hmade
      · have hsome := h.interactor fd hsocket
        rw [hget] at hsome
        cases hsome

theorem AllAttended.removeClosedHandler (h : AllAttended server)
    (hreturns : (server.removeClosedHandler fd).fault = none) :
    AllAttended (server.removeClosedHandler fd).state := by
  refine ⟨h.drained.removeClosedHandler fd, fun fd' hsocket => ?_⟩
  rw [isListenerAt_removeClosedHandler] at hsocket
  split at hsocket
  · cases hsocket
  · next hfd =>
    have hclient := interactors_removeClosedHandler hreturns fd'
    rw [if_neg fun hcond => hfd hcond.2] at hclient
    rw [← Option.isSome_map (f := Interactor.client), hclient, Option.isSome_map]
    exact h.interactor fd' hsocket

theorem AllAttended.loopStep (h : AllAttended server) {step : LoopStep ρ}
    (hreturns : (server.loopStep md5 step).fault = none) :
    AllAttended (server.loopStep md5 step).state := by
  cases step with
  | interrupt configuration =>
      exact h.congr (server.sameConnections_handleInterrupt configuration)
        (h.drained.handleInterrupt configuration)
  | event event =>
      by_cases hlistener : server.isListenerAt event.fd = some true
      · show AllAttended (server.handleEvent md5 event).state
        rcases handleEvent_of_listener md5 hlistener with ⟨client, -, heq⟩ | ⟨-, heq⟩ <;> rw [heq]
        · exact h.addHandler client
        · exact h
      · exact h.congr (sameConnections_handleEvent md5 hlistener) (h.drained.handleEvent md5 event)
  | sweep =>
      exact Outcome.forEach_keeps_of_returns (P := AllAttended)
        (fun _ _ hs hround => hs.removeClosedHandler hround) h hreturns

/-! ## The loop -/

/-- **Received bytes are never skipped**, in every run of the loop in which no exception comes of a
chunk that others of the same read follow. -/
theorem nothingSkipped_eventLoop (md5 : Bytes → Bytes) (handlers : OrdMap Fd Handler)
    (hlisteners : ∀ entry ∈ handlers.toList, entry.2.isListener)
    (authenticationManager : AuthenticationManager)
    (authorizationManager : AuthorizationManager ρ) (turns : List (Turn ρ))
    (h : Outcome.Meets (ServerState.loopStep md5) (Uninterrupted md5) (turns.flatMap Turn.steps)
      (new handlers authenticationManager authorizationManager)) :
    Outcome.Meets (ServerState.loopStep md5) (NothingSkipped md5) (turns.flatMap Turn.steps)
      (new handlers authenticationManager authorizationManager) := by
  refine h.imp AllAttended (fun s step hs hstep => ?_)
    (fun s step hs hreturns => hs.loopStep hreturns)
    (allAttended_new hlisteners authenticationManager authorizationManager)
  cases step with
  | event event =>
      intro handler hget hreadable hreturns hopen
      have hsocket : s.isListenerAt event.fd = some false := by
        rw [isListenerAt, hget]
        rfl
      have hattended : Attended event.fd s :=
        ⟨hs.drained, Option.isSome_iff_exists.mp (hs.interactor event.fd hsocket)⟩
      exact hattended.readsAll (hstep handler hget hreadable) hreturns hopen
  | _ => trivial

/-! ### Two reads -/

/-- A request to be notified of a malformed pattern. -/
def malformed : Bytes := Message.wire (.notificationRequest ⟨ascii "(", true⟩)

def subscribe : Bytes := Message.wire (.subscriptionRequest ⟨ascii "A", true⟩)

/-- A login on a new connection is answered. -/
theorem raisesNothing_login {server : ServerState PlainRegex}
    (hget : server.interactors[fd]? = some ⟨100, 4, ascii "host", ascii "P", .empty, none⟩)
    (hmanager : server.authenticationManager = .new none) :
    RaisesNothing zeroDigest fd server login := by
  intro _ interactor hasFrame reader hget' hwrite frame hframe message hmessage
  obtain rfl := Option.some.inj (hget.symm.trans hget')
  have hframes : (FrameReader.empty.write login).toOption.map
      (fun answer => answer.2.frames.map Message.ofFrame) =
        some [some (.authenticationRequest ⟨ascii "none", []⟩)] := by
    decide +kernel
  rw [hwrite] at hframes
  have hmade : Message.ofFrame frame ∈ [some (.authenticationRequest ⟨ascii "none", []⟩)] :=
    Option.some.inj hframes ▸ List.mem_map_of_mem hframe
  intro request hrequest
  rw [hmessage, hrequest] at hmade
  obtain rfl : request = ⟨ascii "none", []⟩ := by simpa using hmade
  refine ⟨some (ascii "nobody"), ?_⟩
  show server.authenticationManager.authenticate zeroDigest _ = _
  rw [hmanager]
  decide +kernel

/-- A client logs in and asks for a malformed pattern, all in one read; then it subscribes. -/
theorem nothingSkipped_of_two_reads :
    Outcome.Meets (ServerState.loopStep zeroDigest) (NothingSkipped zeroDigest)
      (([⟨none, [accepted]⟩, ⟨none, [received [login, malformed]]⟩,
        ⟨none, [received [subscribe]]⟩] : List (Turn PlainRegex)).flatMap Turn.steps) listening := by
  refine nothingSkipped_eventLoop zeroDigest (Std.ExtTreeMap.insert ∅ 3 (.listener true))
    (by decide +kernel) (.new none) (.new none []) _ ?_
  refine ⟨?_, fun _ => ⟨trivial, fun _ => ⟨?_, fun _ => ⟨trivial, fun _ => ⟨?_, fun _ =>
    ⟨trivial, fun _ => trivial⟩⟩⟩⟩⟩⟩
  · intro handler hget
    have hlistener : listening.handlers[3]? = some (.listener true) := by decide +kernel
    cases hlistener.symm.trans hget
  · intro handler _ _
    have hnew : ((listening.loopStep zeroDigest (.event accepted)).state.loopStep zeroDigest
        .sweep).state.interactors[4]? = some ⟨100, 4, ascii "host", ascii "P", .empty, none⟩ := by
      decide +kernel
    cases hopen : handler.isOpen with
    | true =>
        simp only [received, List.map_cons, List.map_nil, SocketHandler.read, hopen]
        exact ⟨raisesNothing_login hnew rfl, fun _ => trivial⟩
    | false =>
        rw [SocketHandler.read_of_closed hopen]
        trivial
  · intro handler _ _
    cases hopen : handler.isOpen with
    | true =>
        simp only [received, List.map_cons, List.map_nil, SocketHandler.read, hopen]
        trivial
    | false =>
        rw [SocketHandler.read_of_closed hopen]
        trivial

/-- The login, a malformed pattern and a subscription are read at once: the subscription is lost, and
the connection stays open. -/
theorem last_chunk_skipped :
    ¬ Outcome.Meets (ServerState.loopStep zeroDigest) (NothingSkipped zeroDigest)
      (([⟨none, [accepted]⟩, ⟨none, [received [login, malformed, subscribe]]⟩] :
        List (Turn PlainRegex)).flatMap Turn.steps) listening := by
  intro h
  have hread := ((h.2 (by decide +kernel)).2 (by decide +kernel)).1
  have hall := (hread .new (by decide +kernel) rfl (by decide +kernel) (by decide +kernel)).passed
  revert hall
  decide +kernel

end ServerState

end SquawkBus.Server
