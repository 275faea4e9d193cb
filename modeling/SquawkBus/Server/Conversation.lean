import SquawkBus.Server.LoopRule
import SquawkBus.Server.OnlyAuthenticated

/-!
# The conversation on a connection

What the server says to a client has an order: first the answers to requests to log in, no more than there
were requests, and only after the one that lets the client in the messages of the hub
(`conversation_run`). So a client that has not been let in is told nothing of what others do.
-/

namespace SquawkBus.Server

open SquawkBus.Io SquawkBus.Messages SquawkBus.Serialization

/-! ## What is counted -/

variable {ρ : Type} [RegexEngine ρ]

/-- How many of the messages processed are requests to log in. -/
def logins (line : Line) : Nat :=
  line.processed.countP fun message => message.messageType = .authenticationRequest

namespace ServerState

/-- Where a connection is accepted there is no interactor yet, and the one made for it is made at an
address that is not in the tables of the hub, nor that of another interactor. -/
def MakesNew (server : ServerState ρ) (step : LoopStep ρ) : Prop :=
  ∀ client ∈ server.accepts step,
    server.interactors[client.fd]? = none ∧ server.NewAddress (.opened client)

/-! ## The interactors -/

/-- The hub knows no interactor without a user, and each is that of its descriptor. -/
structure Orderly (server : ServerState ρ) : Prop where
  admitted : server.Admitted
  own : ∀ (fd : Fd) interactor, server.interactors[fd]? = some interactor → interactor.fd = fd

variable {server server' : ServerState ρ} {fd fd' : Fd} {interactor : Interactor}

theorem orderly_new (handlers : OrdMap Fd Handler) (authenticationManager : AuthenticationManager)
    (authorizationManager : AuthorizationManager ρ) :
    (new handlers authenticationManager authorizationManager).Orderly :=
  ⟨admitted_new _ _ _, fun fd interactor hget => by simp [new] at hget⟩

theorem Orderly.congr (h : server.Orderly) (hinteractors : server'.interactors = server.interactors)
    (hhub : server'.hub = server.hub) : server'.Orderly :=
  ⟨h.admitted.congr hinteractors hhub, by rw [hinteractors]; exact h.own⟩

/-- The descriptors of the interactors stay as long as the connections do. -/
theorem Orderly.of_sameConnections (h : server.Orderly) (hsame : SameConnections server server')
    (hadmitted : server'.Admitted) : server'.Orderly := by
  refine ⟨hadmitted, fun fd interactor' hget' => ?_⟩
  have hclient := hsame.interactors fd
  rw [hget', Option.map_some, eq_comm, Option.map_eq_some_iff] at hclient
  obtain ⟨interactor, hget, hclient⟩ := hclient
  have hfd : interactor.fd = interactor'.fd := congrArg Client.fd hclient
  rw [← hfd]
  exact h.own fd interactor hget

theorem Orderly.withReader (h : server.Orderly) (hget : server.interactors[fd]? = some interactor)
    (reader : FrameReader) : (server.withInteractor fd { interactor with reader }).Orderly :=
  h.of_sameConnections (sameConnections_withInteractor hget rfl)
    (h.admitted.withInteractor hget rfl id)

theorem Orderly.processMessage (h : server.Orderly) (md5 : Bytes → Bytes)
    (hget : server.interactors[fd]? = some interactor) (message : Message) :
    (server.processMessage md5 fd interactor message).state.Orderly :=
  h.of_sameConnections (sameConnections_processMessage md5 hget message)
    (h.admitted.processMessage md5 hget message)

theorem Orderly.onInterrupt (h : server.Orderly) (configuration : Configuration ρ) :
    (server.onInterrupt configuration).state.Orderly := by
  have hsame := server.sameConnections_handleInterrupt configuration
  rw [handleInterrupt_state] at hsame
  exact h.of_sameConnections hsame (h.admitted.onInterrupt configuration)

theorem Orderly.onClose (h : server.Orderly) (fd : Fd) : (server.onClose fd).state.Orderly :=
  ⟨h.admitted.onClose fd, fun fd' interactor hget => h.own fd' interactor (get_of_onClose hget)⟩

theorem Orderly.onOpen (h : server.Orderly) {client : Client}
    (hnew : server.NewAddress (.opened client)) : (server.onOpen client).state.Orderly := by
  refine ⟨h.admitted.onOpen hnew, fun fd interactor hget => ?_⟩
  rcases get_of_onOpen hget with ⟨rfl, -, rfl⟩ | hget
  · rfl
  · exact h.own fd interactor hget

/-- An interactor is found by its address. -/
theorem Orderly.interactorAt (h : server.Orderly) (hget : server.interactors[fd]? = some interactor) :
    server.interactorAt interactor.address = some interactor :=
  interactorAt_of_addresses h.admitted.addresses hget

/-- **The hub calls authenticated interactors only**, and finds them at their descriptors. -/
theorem Orderly.called (h : server.Orderly) {step : HubStep ρ} (hstep : server.ByUser step)
    {call : Call} (hcall : call ∈ (server.hub.step server.identify step).events)
    (hat : server.interactorAt call.interactor = some interactor) :
    server.interactors[interactor.fd]? = some interactor ∧ interactor.user.isSome := by
  obtain ⟨haddress, fd, hget⟩ := get_of_interactorAt hat
  rw [h.own fd interactor hget]
  refine ⟨hget, ?_⟩
  by_contra hnone
  have hnone : interactor.user = none := by simpa using hnone
  rcases (Hub.step_calls hcall).1 with hself | hknows
  · exact hstep fd interactor hget hnone (haddress ▸ hself)
  · exact (h.admitted.strangers fd interactor hget hnone).not_knows (haddress ▸ hknows)

/-! ## The invariant -/

/-- **Answers to logins first**, and then what the hub forwards, when there is a user to forward it to. -/
def Conversation (fd : Fd) (server : ServerState ρ) (line : Line) : Prop :=
  ∃ answers forwarded,
    line.sent = List.replicate answers (.authenticationResponse ⟨true⟩) ++ forwarded ∧
      (∀ message ∈ forwarded, Hub.IsForwarded ∅ message) ∧
      answers ≤ logins line ∧ (forwarded ≠ [] → 0 < answers) ∧
      ∀ interactor, server.interactors[fd]? = some interactor →
        (interactor.user = none → forwarded = []) ∧ (interactor.user.isSome → 0 < answers)

variable {line line' : Line}

/-- What the conversation does not depend on may change: the rest of the server, and of the record. -/
theorem Conversation.congr (h : Conversation fd server line)
    (hget : ∀ interactor', server'.interactors[fd]? = some interactor' →
      ∃ interactor, server.interactors[fd]? = some interactor ∧ interactor'.user = interactor.user)
    (hsent : line'.sent = line.sent) (hlogins : logins line ≤ logins line') :
    Conversation fd server' line' := by
  obtain ⟨answers, forwarded, heq, hforwarded, hasked, hfirst, huser⟩ := h
  refine ⟨answers, forwarded, hsent.trans heq, hforwarded, hasked.trans hlogins, hfirst, ?_⟩
  intro interactor' hget'
  obtain ⟨interactor, hget, hsame⟩ := hget interactor' hget'
  rw [hsame]
  exact huser interactor hget

theorem Conversation.of_interactors (h : Conversation fd server line)
    (hinteractors : server'.interactors[fd]? = server.interactors[fd]?) :
    Conversation fd server' line :=
  h.congr (fun interactor' hget' => ⟨interactor', hinteractors ▸ hget', rfl⟩) rfl (Nat.le_refl _)

/-- **A message of the hub** goes to a client that has been let in. -/
theorem Conversation.sent (h : Conversation fd server line)
    (hget : server.interactors[interactor.fd]? = some interactor) (huser : interactor.user.isSome)
    {message : Message} (hforwarded : Hub.IsForwarded ∅ message) :
    Conversation fd server (note fd line (.sent interactor.fd message)) := by
  by_cases hfd : interactor.fd = fd
  · subst hfd
    rw [note, if_pos rfl]
    obtain ⟨answers, forwarded, heq, hall, hasked, hfirst, husers⟩ := h
    have hanswered : 0 < answers := (husers interactor hget).2 huser
    refine ⟨answers, forwarded ++ [message], ?_, List.forall_mem_append.mpr
      ⟨hall, List.forall_mem_singleton.mpr hforwarded⟩, hasked, fun _ => hanswered, ?_⟩
    · rw [heq, List.append_assoc]
    · intro interactor' hget'
      obtain rfl := Option.some.inj (hget.symm.trans hget')
      refine ⟨fun hnone => ?_, fun _ => hanswered⟩
      rw [hnone] at huser
      cases huser
  · rw [note, if_neg hfd]
    exact h

/-- **The answer to a login**, whatever becomes of the user. -/
theorem Conversation.answered (h : Conversation fd server line)
    (hget : server.interactors[fd]? = some interactor) (hnone : interactor.user = none)
    (request : AuthenticationRequest) :
    Conversation fd server' { line with
      processed := line.processed ++ [.authenticationRequest request]
      sent := line.sent ++ [.authenticationResponse ⟨true⟩] } := by
  obtain ⟨answers, forwarded, heq, hall, hasked, hfirst, husers⟩ := h
  have hnothing : forwarded = [] := (husers interactor hget).1 hnone
  refine ⟨answers + 1, [], ?_, by simp, ?_, by simp, fun _ _ => by simp⟩
  · rw [heq, hnothing, List.replicate_succ']
    simp
  · unfold logins at hasked ⊢
    rw [List.countP_append]
    simpa [Message.messageType] using hasked

/-! ## The calls -/

section

variable (md5 : Bytes → Bytes)

theorem Orderly.keeps_onHub (h : server.Orderly) {step : HubStep ρ} (hstep : server.ByUser step) :
    (server.onHub step).Keeps (note fd) (Conversation fd) server := by
  refine ServerState.keeps_onHub (fun s handlers t ht => ht.of_interactors rfl)
    (fun t ht => ht.of_interactors rfl) fun i message interactor hcall hat handlers t ht => ?_
  obtain ⟨hget, huser⟩ := h.called hstep hcall hat
  have hforwarded := ((Hub.step_calls hcall).2 i message rfl).isForwarded
  rw [h.admitted.clients] at hforwarded
  exact ht.sent hget huser hforwarded

/-- **A message processed**, on this connection or another. -/
theorem Orderly.keeps_processMessage (h : server.Orderly)
    (hget : server.interactors[fd']? = some interactor) (message : Message) :
    (server.processMessage md5 fd' interactor message).Keeps (note fd) (Conversation fd) server := by
  have hprocessed : ∀ line, Conversation fd server line →
      Conversation fd server (note fd line (.processed fd' message)) := by
    intro line hline
    by_cases hfd : fd' = fd
    · rw [note, if_pos hfd]
      exact hline.congr (fun interactor' hget' => ⟨interactor', hget', rfl⟩) rfl (by simp [logins])
    · rw [note, if_neg hfd]
      exact hline
  cases huser : interactor.user with
  | some user =>
      have hsome : interactor.user.isSome := by simp [huser]
      rw [processMessage_of_user md5 hsome]
      exact (Outcome.keeps_emit fun line hline => hprocessed line hline).andThen
        (h.keeps_onHub (h.admitted.byUser hget hsome rfl))
  | none =>
      rw [processMessage_of_none md5 huser, Outcome.andThen_of_ok rfl]
      intro line hline
      cases message with
      | authenticationRequest request =>
          -- Both answers are the same.
          have hanswered : ∀ (server' : ServerState ρ) event,
              (fd' ≠ fd → server'.interactors[fd]? = server.interactors[fd]?) →
              (∀ line, note fd line event = line) →
              Conversation fd server' ([.processed fd' (.authenticationRequest request), event,
                .sent fd' (.authenticationResponse ⟨true⟩)].foldl (note fd) line) := by
            intro server' event hother hquiet
            simp only [List.foldl_cons, List.foldl_nil, hquiet]
            by_cases hfd : fd' = fd
            · subst hfd
              simp only [note, if_true]
              exact hline.answered hget huser request
            · simp only [note, if_neg hfd]
              exact hline.of_interactors (hother hfd)
          have hset : ∀ user, fd' ≠ fd → (server.withInteractor fd'
              { interactor with user }).interactors[fd]? = server.interactors[fd]? := by
            intro user hfd
            rw [OrdMap.get_insert, if_neg hfd]
          cases hanswer : server.authenticationManager.authenticate md5 request with
          | error e =>
              rw [Outcome.emit_state, authenticate_error md5 hanswer]
              exact hprocessed line hline
          | ok answer =>
              cases answer with
              | some user =>
                  rw [Outcome.emit_state, authenticate_some md5 hanswer]
                  refine hanswered _ _ (fun hfd => ?_) fun _ => rfl
                  rw [Outcome.emit_state, interactors_write]
                  exact hset (some user) hfd
              | none =>
                  rw [Outcome.emit_state, authenticate_none md5 hanswer]
                  refine hanswered _ _ (fun hfd => ?_) fun _ => rfl
                  rw [Outcome.emit_state, interactors_write, interactors_close]
                  exact hset none hfd
      | _ =>
          rw [Outcome.emit_state, authenticate_other md5 (by simp)]
          refine (hprocessed line hline).of_interactors ?_
          rw [interactors_close]

theorem Orderly.keeps_onInterrupt (h : server.Orderly) (configuration : Configuration ρ) :
    (server.onInterrupt configuration).Keeps (note fd) (Conversation fd) server := by
  unfold ServerState.onInterrupt
  split
  · exact Outcome.keeps_fail (fun _ h => h) _
  · next manager _ =>
    have hloaded : Orderly { server with authenticationManager := manager } := h.congr rfl rfl
    exact fun line hline => hloaded.keeps_onHub (fun _ _ _ _ heq => by cases heq) line
      (hline.of_interactors rfl)

theorem Orderly.keeps_onClose (h : server.Orderly) (fd' : Fd) :
    (server.onClose fd').Keeps (note fd) (Conversation fd) server := by
  have herased : ∀ (s : ServerState ρ) line, Conversation fd s line →
      Conversation fd { s with interactors := s.interactors.erase fd' } line := by
    intro s line hline
    refine hline.congr (fun interactor' hget' => ?_) rfl (Nat.le_refl _)
    exact ⟨interactor', (OrdMap.get_of_erase hget').2, rfl⟩
  cases hget : server.interactors[fd']? with
  | none =>
      unfold ServerState.onClose
      rw [hget]
      exact Outcome.keeps_done fun _ h => h
  | some interactor =>
      cases huser : interactor.user with
      | none =>
          rw [h.admitted.onClose_of_stranger hget huser]
          exact Outcome.keeps_emit (herased server)
      | some user =>
          unfold ServerState.onClose
          rw [hget]
          exact (h.keeps_onHub (h.admitted.byUser hget (by simp [huser]) rfl)).andThen
            (Outcome.keeps_emit (herased _))

theorem conversation_onOpen {client : Client} (hnew : server.interactors[client.fd]? = none) :
    (server.onOpen client).Keeps (note fd) (Conversation fd) server := by
  refine Outcome.keeps_emit fun line hline => ?_
  rw [List.foldl_cons, List.foldl_nil]
  by_cases hfd : client.fd = fd
  · subst hfd
    rw [note, if_pos rfl]
    refine ⟨0, [], rfl, by simp, Nat.zero_le _, by simp, fun interactor hget => ⟨fun _ => rfl, ?_⟩⟩
    have hmade := get_onOpen_of_new hnew client.fd
    rw [if_pos rfl] at hmade
    obtain rfl := Option.some.inj (hmade.symm.trans hget)
    simp
  · rw [note, if_neg hfd]
    refine hline.of_interactors ?_
    have hothers := get_onOpen_of_new hnew fd
    rwa [if_neg hfd] at hothers

/-! ## Runs -/

/-- **A step of the loop** goes on with the conversation. -/
theorem conversation_loopStep {step : LoopStep ρ} (hnew : server.MakesNew step) :
    (server.loopStep md5 step).Keeps (note fd)
      (fun s line => s.Orderly ∧ Conversation fd s line) server := by
  refine keeps_loopStep md5 (fun s handlers line h => ⟨h.1.congr rfl rfl, h.2.of_interactors rfl⟩)
    (fun s fd' interactor reader line hget h => ⟨h.1.withReader hget reader, ?_⟩)
    (fun s fd' interactor message hget line h =>
      ⟨h.1.processMessage md5 hget message, h.1.keeps_processMessage md5 hget message line h.2⟩)
    (fun configuration _ line h =>
      ⟨h.1.onInterrupt configuration, h.1.keeps_onInterrupt configuration line h.2⟩)
    (fun s fd' line h => ⟨h.1.onClose fd', h.1.keeps_onClose fd' line h.2⟩)
    fun client haccepts line h => ⟨h.1.onOpen (hnew client haccepts).2,
      conversation_onOpen (hnew client haccepts).1 line h.2⟩
  refine h.2.congr (fun interactor' hget' => ?_) rfl (Nat.le_refl _)
  rw [OrdMap.get_insert] at hget'
  split at hget'
  · next hfd =>
    obtain rfl := Option.some.inj hget'
    exact ⟨interactor, hfd ▸ hget, rfl⟩
  · exact ⟨interactor', hget', rfl⟩

/-- **Every conversation keeps to its order**, in every run of the loop in which new interactors are made
at new addresses: the messages sent to a client since its connection was opened are answers to
logins, no more than it has asked for, and then messages of the hub, if it has been let in; as long
as it has no user there are none of these. -/
theorem conversation_run (handlers : OrdMap Fd Handler)
    (authenticationManager : AuthenticationManager)
    (authorizationManager : AuthorizationManager ρ) (steps : List (LoopStep ρ)) (fd : Fd)
    (hnew : Outcome.Meets (loopStep md5) MakesNew steps
      (new handlers authenticationManager authorizationManager)) :
    Conversation fd
      (Outcome.forEach (ServerState.loopStep md5) steps
        (new handlers authenticationManager authorizationManager)).state
      (lineAt md5 fd steps (new handlers authenticationManager authorizationManager)) := by
  have hbegun : (new handlers authenticationManager authorizationManager).Orderly ∧
      Conversation fd (new handlers authenticationManager authorizationManager) .new :=
    ⟨orderly_new _ _ _, 0, [], rfl, by simp, Nat.zero_le _, by simp, fun interactor hget => by
      simp [new] at hget⟩
  have hstep : ∀ (step : LoopStep ρ) s line, s.Orderly ∧ Conversation fd s line → s.MakesNew step →
      Conversation fd (s.loopStep md5 step).state (lineStep md5 fd line s step) ∧
        ((s.loopStep md5 step).fault = none → (s.loopStep md5 step).state.Orderly ∧
          Conversation fd (s.loopStep md5 step).state (lineStep md5 fd line s step)) := by
    intro step s line h hnew
    have hread : Conversation fd s { line with received := line.received ++ s.readAt fd step } :=
      h.2.congr (fun interactor' hget' => ⟨interactor', hget', rfl⟩) rfl (Nat.le_refl _)
    obtain ⟨horderly, hafter⟩ := conversation_loopStep md5 hnew _ ⟨h.1, hread⟩
    have hkept : Conversation fd (s.loopStep md5 step).state (lineStep md5 fd line s step) :=
      hafter.congr (fun interactor' hget' => ⟨interactor', hget', rfl⟩) rfl (Nat.le_refl _)
    exact ⟨hkept, fun _ => ⟨horderly, hkept⟩⟩
  exact hnew.summary_of_returns (fun _ _ h => h.2) hstep hbegun

/-- A client logs in, asks to be told of the subscriptions to a topic, and subscribes to it. -/
def eavesdropping : List (LoopStep PlainRegex) :=
  [.event accepted,
    .event (received [login, Message.wire (.notificationRequest ⟨ascii "A", true⟩), subscription true])]

theorem conversation_of_eavesdropping :
    Conversation 4 (Outcome.forEach (ServerState.loopStep zeroDigest) eavesdropping listening).state
      (lineAt zeroDigest 4 eavesdropping listening) := by
  refine conversation_run zeroDigest (Std.ExtTreeMap.insert ∅ 3 (.listener true)) (.new none)
    (.new none []) eavesdropping 4 ⟨fun client haccepts => ?_, fun _ => ⟨fun client haccepts => ?_,
      fun _ => trivial⟩⟩
  · obtain rfl : client = ⟨4, ascii "host", 100, ascii "P"⟩ := by
      have hlistener : listening.isListenerAt 3 = some true := by decide +kernel
      have hclient : listening.accepts (.event accepted) = some ⟨4, ascii "host", 100, ascii "P"⟩ := by
        simp [accepts, accepted, hlistener, Except.toOption]
      exact Option.some.inj (haccepts.symm.trans hclient)
    exact ⟨by simp [new], by simp [new], Hub.lacks_new _ _⟩
  · simp [accepts, received, Except.toOption] at haccepts

end

end ServerState

end SquawkBus.Server
