import SquawkBus.Client.Options
import SquawkBus.Connection
import SquawkBus.Server.Reload

/-!
# Who a client is to the server

From the command line of a client to its user on the server. The client logs in once, first of all,
with what its options say, and the server goes by the password lines in force. So whatever else happens
in between, the user that the client becomes is the one the command line names, with the password of
the record (`identity_run`); and a login that has come in whole is let in just then (`login_iff`).
-/

namespace SquawkBus

open SquawkBus.Io SquawkBus.Messages SquawkBus.Serialization SquawkBus.Server SquawkBus.Client

/-! ## The login of a client -/

/-- **The options identify the user** by the password lines: they name the user and give the password of
its record. Without a password file, options that name nobody make nobody of the client. -/
def Client.Options.Identify (md5 : Bytes → Bytes) (passwordFile : Option Bytes) (lines : List Bytes)
    (options : Client.Options) (user : Bytes) : Prop :=
  match passwordFile, options.authentication with
  | none, none => user = ascii "nobody"
  | some _, some ⟨username, password⟩ =>
      ∃ rest, username ++ 58 :: password = user ++ 58 :: rest ∧ 58 ∉ user ∧
        ∃ salt, salt.length ≤ 8 ∧ 36 ∉ salt ∧
          lines.findSome? (AuthenticationManager.record? user) = some (apr1Record md5 rest salt)
  | _, _ => False

theorem vouched_makeAuthenticationRequest_iff {md5 : Bytes → Bytes} {passwordFile : Option Bytes}
    {lines : List Bytes} {options : Client.Options} {user : Bytes} :
    AuthenticationManager.Vouched md5 passwordFile lines options.makeAuthenticationRequest user ↔
      options.Identify md5 passwordFile lines user := by
  unfold AuthenticationManager.Vouched Client.Options.Identify Client.Options.makeAuthenticationRequest
  cases passwordFile with
  | none =>
      cases options.authentication with
      | none => simp
      | some authentication => simp [ascii]
  | some path =>
      cases options.authentication with
      | none => simp [ascii]
      | some authentication => simp [base64Decode_encodeBasicToken]

namespace Client

/-- The client has sent no login but this. -/
def LogsInAs (request : AuthenticationRequest) (line : Line) : Prop :=
  ∀ other, .authenticationRequest other ∈ line.sent → other = request

variable {request : AuthenticationRequest} {line : Line}

theorem LogsInAs.snoc (h : LogsInAs request line) (event : ClientEvent)
    (hevent : ∀ other, event = .sent (.authenticationRequest other) → other = request) :
    LogsInAs request (note line event) := by
  intro other hmem
  cases event with
  | sent message =>
      rcases List.mem_append.mp hmem with hmem | hmem
      · exact h other hmem
      · obtain rfl := List.mem_singleton.mp hmem
        exact hevent other rfl
  | _ => exact h other hmem

theorem keeps_logsInAs_send (client : SquawkbusClient) (message : Message)
    (hmessage : ∀ other, message = .authenticationRequest other → other = request) :
    (client.send message).Keeps note (fun _ => LogsInAs request) client := by
  unfold SquawkbusClient.send
  split
  · exact Outcome.keeps_emit fun _ h => h.snoc _ fun other heq =>
      hmessage other (ClientEvent.sent.inj heq)
  · exact Outcome.keeps_fail (fun _ h => h) _

theorem logsInAs_onStartup (request : AuthenticationRequest) :
    LogsInAs request ((SquawkbusClient.new request).onStartup.events.foldl note .new) :=
  keeps_logsInAs_send (SquawkbusClient.new request) (.authenticationRequest request)
    (fun _ heq => (Message.authenticationRequest.inj heq).symm) .new fun _ hmem =>
      absurd hmem List.not_mem_nil

/-- **No step of the client** sends a login. -/
theorem LogsInAs.clientStep (h : LogsInAs request line) (client : SquawkbusClient)
    (step : SquawkbusClient.ClientStep) :
    LogsInAs request (SquawkbusClient.lineStep line client step) := by
  have hsend : ∀ (client : SquawkbusClient) (message : Message),
      (∀ other, message ≠ .authenticationRequest other) →
        (client.send message).Keeps note (fun _ => LogsInAs request) client :=
    fun client message hmessage => keeps_logsInAs_send client message
      fun other heq => absurd heq (hmessage other)
  have hquiet : ∀ (client : SquawkbusClient) (line : Line) event, (∀ message, event ≠ .sent message) →
      LogsInAs request line → LogsInAs request (note line event) :=
    fun _ _ event hevent h => h.snoc event fun _ heq => absurd heq (hevent _)
  have hread : LogsInAs request { line with received := line.received ++ client.readFrom step } := h
  show LogsInAs request ((client.clientStep step).events.foldl note _)
  cases step with
  | console results =>
      exact SquawkbusClient.keeps_readConsole hsend (fun _ _ _ h _ => h) hquiet client results _ hread
  | socket event =>
      rw [SquawkbusClient.clientStep, SquawkbusClient.events_handleSocket]
      exact SquawkbusClient.keeps_handleSocketRead (fun (_ _ : SquawkbusClient) (_ : Line) h _ => h)
        hquiet client event _ hread
  | sweep =>
      rw [SquawkbusClient.clientStep, client.sweep_quiet.2]
      exact hread

end Client

namespace Connection

/-! ## Servers and their connections -/

variable {ρ : Type} [RegexEngine ρ]

/-- **A server in its loop**, and the configurations it has found. -/
inductive Running (md5 : Bytes → Bytes) (handlers : OrdMap Fd Handler) (passwordFile path : Option Bytes)
    (cmdLineSpecs : List (AuthorizationSpec ρ)) : List (Configuration ρ) → ServerState ρ → Prop
  | intro {startup : Configuration ρ} {steps : List (LoopStep ρ)}
      (hreturns : ((ServerState.new handlers (.new passwordFile) (.new path cmdLineSpecs)).startUp md5
        startup steps).fault = none) :
      Running md5 handlers passwordFile path cmdLineSpecs (startup :: interrupts steps)
        ((ServerState.new handlers (.new passwordFile) (.new path cmdLineSpecs)).startUp md5 startup
          steps).state

/-- **A server that has just accepted a connection.** -/
inductive Joined (md5 : Bytes → Bytes) (fd : Fd) (passwordFile path : Option Bytes)
    (cmdLineSpecs : List (AuthorizationSpec ρ)) (found : List (Configuration ρ)) :
    ServerState ρ → Prop
  | intro {handlers : OrdMap Fd Handler} {server : ServerState ρ} {event : PollEvent}
      {client : Server.Client} (hlisteners : ∀ entry ∈ handlers.toList, entry.2.isListener)
      (hrunning : Running md5 handlers passwordFile path cmdLineSpecs found server)
      (haccepts : server.accepts (.event event) = some client) (hfd : client.fd = fd)
      (hnew : server.MakesInteractor (.event event)) :
      Joined md5 fd passwordFile path cmdLineSpecs found (server.loopStep md5 (.event event)).state

variable {md5 : Bytes → Bytes} {fd : Fd} {passwordFile path : Option Bytes}
  {cmdLineSpecs : List (AuthorizationSpec ρ)} {found : List (Configuration ρ)} {server : ServerState ρ}

/-- Loading a configuration makes a fresh server of a fresh one. -/
theorem onInterrupt_new (handlers : OrdMap Fd Handler) (authenticationManager : AuthenticationManager)
    (authorizationManager : AuthorizationManager ρ) (configuration : Configuration ρ) :
    ∃ authenticationManager' authorizationManager',
      ((ServerState.new handlers authenticationManager authorizationManager).onInterrupt
        configuration).state = .new handlers authenticationManager' authorizationManager' := by
  unfold ServerState.onInterrupt
  split
  · exact ⟨_, _, rfl⟩
  · next manager _ =>
    cases hload : authorizationManager.load configuration.authorizations with
    | ok loaded =>
        refine ⟨manager, loaded, ?_⟩
        simp [ServerState.onHub, Hub.step, Hub.reload, ServerState.new, Hub.new, PublisherManager.new, PublisherManager.reloadAuthorizations, hload]
    | error e =>
        refine ⟨manager, authorizationManager, ?_⟩
        simp [ServerState.onHub, Hub.step, Hub.reload, ServerState.new, Hub.new, PublisherManager.new, PublisherManager.reloadAuthorizations, hload]

theorem Running.goesBy {handlers : OrdMap Fd Handler}
    (h : Running md5 handlers passwordFile path cmdLineSpecs found server) :
    server.GoesBy passwordFile path cmdLineSpecs found := by
  obtain ⟨hreturns⟩ := h
  exact ServerState.goesBy_startUp md5 hreturns

theorem Joined.goesBy (h : Joined md5 fd passwordFile path cmdLineSpecs found server) :
    server.GoesBy passwordFile path cmdLineSpecs found := by
  obtain ⟨-, hrunning, -, -, -⟩ := h
  rename_i handlers server event client
  have hgoes := hrunning.goesBy.loopStep md5 (.event event)
  rwa [show interrupts [LoopStep.event event] = [] from rfl, List.append_nil] at hgoes

theorem Joined.accepted (h : Joined md5 fd passwordFile path cmdLineSpecs found server) :
    Accepted md5 fd server := by
  obtain ⟨hlisteners, ⟨hreturns⟩, haccepts, hfd, hnew⟩ := h
  rename_i handlers event client startup steps
  obtain ⟨hstart, hsteps⟩ := Outcome.returns_andThen hreturns
  obtain ⟨authenticationManager, authorizationManager, hfresh⟩ :=
    onInterrupt_new handlers (.new passwordFile) (.new path cmdLineSpecs) startup
  rw [hfresh] at hsteps
  refine .intro hlisteners hsteps ?_ haccepts hfd hnew
  rw [ServerState.startUp, Outcome.andThen_of_ok hstart, hfresh]

/-! ## What is known of a connection -/

/-- The steps of the server. -/
def serverSteps (steps : List (ConnectionStep ρ)) : List (LoopStep ρ) :=
  steps.filterMap fun
    | .server step => some step
    | .client _ => none

theorem serverSteps_snoc (steps : List (ConnectionStep ρ)) (step : ConnectionStep ρ) :
    serverSteps (steps ++ [step]) = serverSteps steps ++ serverSteps [step] :=
  List.filterMap_append

/-- **What is known of a connection** that has come so far: its ends are owed what they are owed, the
client has sent no login but the first, and the server goes by the configurations it has found. -/
structure Known (fd : Fd) (passwordFile path : Option Bytes)
    (cmdLineSpecs : List (AuthorizationSpec ρ)) (found : List (Configuration ρ))
    (request : AuthenticationRequest) (connection : Connection ρ) : Prop where
  passing : connection.Passing fd
  heeded : connection.Heeded fd
  login : LogsInAs request connection.clientLine
  goesBy : connection.server.GoesBy passwordFile path cmdLineSpecs found

variable {request : AuthenticationRequest} {connection : Connection ρ}

theorem Known.next (h : connection.Known fd passwordFile path cmdLineSpecs found request)
    {step : ConnectionStep ρ} (hpossible : connection.Possible fd step)
    (hhears : connection.ServerHears md5 fd step) :
    (connection.next md5 fd step).Known fd passwordFile path cmdLineSpecs
      (found ++ interrupts (serverSteps [step])) request := by
  refine ⟨h.passing.next hpossible, h.heeded.next hpossible hhears, ?_, ?_⟩
  · cases step with
    | server step => exact h.login
    | client step => exact h.login.clientStep connection.client step
  · cases step with
    | server step => exact h.goesBy.loopStep md5 step
    | client step =>
        show connection.server.GoesBy _ _ _ (found ++ [])
        rw [List.append_nil]
        exact h.goesBy

theorem known_run (h : Joined md5 fd passwordFile path cmdLineSpecs found server)
    (request : AuthenticationRequest) {steps : List (ConnectionStep ρ)}
    (hsteps : Run.Meets (next md5 fd) (Possible fd) (opened server request) steps)
    (hhears : Run.Meets (next md5 fd) (ServerHears md5 fd) (opened server request) steps) :
    (steps.foldl (next md5 fd) (opened server request)).Known fd passwordFile path cmdLineSpecs
      (found ++ interrupts (serverSteps steps)) request := by
  have hall : ∀ pre, pre <+: steps →
      (pre.foldl (Connection.next md5 fd) (opened server request)).Known fd passwordFile path
        cmdLineSpecs (found ++ interrupts (serverSteps pre)) request := by
    refine Run.prefix_induction steps ?_ fun pre step hpre ih => ?_
    · obtain ⟨hpassing, hheeded, -⟩ := begins_opened h.accepted request
      refine ⟨hpassing, hheeded, logsInAs_onStartup request, ?_⟩
      show server.GoesBy _ _ _ (found ++ [])
      rw [List.append_nil]
      exact h.goesBy
    · have hnext := ih.next (hsteps pre step hpre) (hhears pre step hpre)
      rw [List.append_assoc, interrupts, interrupts, ← List.filterMap_append, ← serverSteps_snoc]
        at hnext
      rw [List.foldl_append]
      exact hnext
  exact hall steps (List.prefix_refl steps)

/-! ## Every run -/

/-- **A client is who its command line says**, however the steps of the two loops, the pieces of the
streams and the reloads fall, if the server hears it well: the user that it becomes at a step is named
there, with the password of the record that is then in force. -/
theorem identity_run (h : Joined md5 fd passwordFile path cmdLineSpecs found server)
    (options : Client.Options) {steps : List (ConnectionStep ρ)} {step : LoopStep ρ}
    (hsteps : Run.Meets (next md5 fd) (Possible fd)
      (opened server options.makeAuthenticationRequest) (steps ++ [.server step]))
    (hhears : Run.Meets (next md5 fd) (ServerHears md5 fd)
      (opened server options.makeAuthenticationRequest) (steps ++ [.server step])) {user : Bytes}
    (hlogin : .authenticated fd user ∈ ((steps.foldl (next md5 fd)
      (opened server options.makeAuthenticationRequest)).server.loopStep md5 step).events) :
    options.Identify md5 passwordFile
      (linesInForce passwordFile (found ++ interrupts (serverSteps steps))) user := by
  have hknown := known_run h options.makeAuthenticationRequest hsteps.of_append hhears.of_append
  have hpossible := hsteps.last
  have hheard := hhears.last
  generalize steps.foldl (next md5 fd) (opened server options.makeAuthenticationRequest) = connection
    at hlogin hknown hpossible hheard
  -- The login follows a request that the server has processed at this step.
  obtain ⟨pre, post, hevents⟩ := List.append_of_mem hlogin
  obtain ⟨before, request, hpre, hvouched⟩ := hknown.goesBy.logins md5 step pre _
    (by rw [hevents]; exact ⟨post, by simp⟩) fd user rfl
  have hprocessed : .authenticationRequest request ∈
      (connection.next md5 fd (.server step)).serverLine.processed := by
    have hopened : .opened fd ∉ (connection.server.loopStep md5 step).events := by
      intro hmem
      obtain ⟨client, haccepts, hfd⟩ := ServerState.accepts_of_opened md5 hmem
      exact hpossible.2.2 client haccepts hfd
    obtain ⟨-, -, hline⟩ := Server.foldl_note hopened
      { connection.serverLine with
        received := connection.serverLine.received ++ connection.server.readAt fd step }
    show _ ∈ ((connection.server.loopStep md5 step).events.foldl (Server.note fd) _).processed
    rw [hline]
    refine List.mem_append_right _ (List.mem_filterMap.mpr
      ⟨.processed fd (.authenticationRequest request), ?_, if_pos rfl⟩)
    rw [hevents, hpre]
    simp
  -- The client has sent it.
  have hnext := hknown.next hpossible hheard
  have hsent := (hnext.heeded.faithful hnext.passing).processed.subset hprocessed
  obtain rfl := hknown.login request hsent
  exact vouched_makeAuthenticationRequest_iff.mp hvouched

/-! ### A slow login -/

/-- Tom's command line. -/
def tomsOptions : Client.Options :=
  ⟨ascii "localhost", 8558, false, none, some ⟨ascii "tom", ascii "pw"⟩⟩

def tomsLogin : Bytes := Message.wire (.authenticationRequest tomsOptions.makeAuthenticationRequest)

/-- A server that has Tom's record, after the steps. -/
def withTom (steps : List (LoopStep PlainRegex)) : Outcome (ServerState PlainRegex) ServerEvent Fault :=
  (ServerState.new (Std.ExtTreeMap.insert ∅ 3 (.listener true)) (.new (some (ascii "passwords")))
    (.new none [])).startUp zeroDigest ServerState.tomsPassword steps

theorem running_withTom (steps : List (LoopStep PlainRegex)) (h : (withTom steps).fault = none) :
    Running zeroDigest (Std.ExtTreeMap.insert ∅ 3 (.listener true)) (some (ascii "passwords")) none []
      (ServerState.tomsPassword :: interrupts steps) (withTom steps).state :=
  .intro h

theorem accepts_withTom : (withTom []).state.accepts (.event ServerState.accepted) =
    some ⟨4, ascii "host", 100, ascii "P"⟩ := by
  have hlistener : (withTom []).state.isListenerAt 3 = some true := by decide +kernel
  simp [ServerState.accepts, ServerState.accepted, hlistener, Except.toOption]

theorem joined_withTom : Joined zeroDigest 4 (some (ascii "passwords")) none []
    [ServerState.tomsPassword] ((withTom []).state.loopStep zeroDigest (.event ServerState.accepted)).state := by
  refine .intro (by decide +kernel) (running_withTom [] (by decide +kernel)) accepts_withTom rfl fun client haccepts => ?_
  obtain rfl := Option.some.inj (accepts_withTom.symm.trans haccepts)
  have hnone : (withTom []).state.interactors[4]? = none := by decide +kernel
  exact hnone

/-- Tom's login is written, and before it is read the password file gets lost. -/
def tomIsSlow : List (ConnectionStep PlainRegex) :=
  [.client (.socket ⟨false, true, [], [.written tomsLogin.length], none⟩),
    .server (.interrupt ⟨none, fun _ => .ok []⟩)]

theorem possible_tomIsSlow : Run.Meets (next zeroDigest 4) (Possible 4)
    (opened ((withTom []).state.loopStep zeroDigest (.event ServerState.accepted)).state
      tomsOptions.makeAuthenticationRequest)
    (tomIsSlow ++ [.server (.event (ServerState.received [tomsLogin]))]) := by
  simp only [tomIsSlow, List.cons_append, List.nil_append, Run.meets_cons]
  refine ⟨⟨by decide +kernel, by decide +kernel⟩,
    ⟨by decide +kernel, by decide +kernel, by simp [ServerState.accepts]⟩,
    ⟨by decide +kernel, by decide +kernel, ?_⟩, Run.meets_nil _ _ _⟩
  intro client haccepts
  simp [ServerState.accepts, ServerState.received, Except.toOption] at haccepts

theorem serverHears_tomIsSlow : Run.Meets (next zeroDigest 4) (ServerHears zeroDigest 4)
    (opened ((withTom []).state.loopStep zeroDigest (.event ServerState.accepted)).state
      tomsOptions.makeAuthenticationRequest)
    (tomIsSlow ++ [.server (.event (ServerState.received [tomsLogin]))]) := by
  simp only [tomIsSlow, List.cons_append, List.nil_append, Run.meets_cons]
  refine ⟨trivial, ⟨by simp [ServerState.accepts], nofun⟩,
    ServerState.hearsWell_received (ServerState.chunkFits_of_retained (n := 0) ?_ ?_) _,
    Run.meets_nil _ _ _⟩
  · decide +kernel
  · decide +kernel

/-- He is let in as Tom. -/
theorem identity_of_slow_tom :
    tomsOptions.Identify zeroDigest (some (ascii "passwords"))
      (linesInForce (some (ascii "passwords"))
        ([ServerState.tomsPassword] ++ interrupts (serverSteps tomIsSlow))) (ascii "tom") :=
  identity_run joined_withTom tomsOptions possible_tomIsSlow serverHears_tomIsSlow (by decide +kernel)

/-! ## A login that has come in -/

theorem authenticated_mem_processMessage_iff {server : ServerState ρ} {interactor : Interactor}
    (hnew : interactor.user = none) {request : AuthenticationRequest} {user : Bytes} :
    .authenticated fd user ∈ (server.processMessage md5 fd interactor
      (.authenticationRequest request)).events ↔
        server.authenticationManager.authenticate md5 request = .ok (some user) := by
  unfold ServerState.processMessage
  rw [Outcome.andThen_of_ok rfl, hnew]
  simp only [Outcome.emit_state, Outcome.emit_events, ServerState.authenticate]
  cases hanswer : server.authenticationManager.authenticate md5 request with
  | error e => simp
  | ok answer =>
      cases answer with
      | none =>
          simp only
          rw [Outcome.andThen_of_ok rfl, ServerState.send_response]
          simp
      | some user' =>
          simp only
          rw [Outcome.andThen_of_ok rfl, ServerState.send_response]
          simp [eq_comm]

/-- **A login that has come in lets the client in** just when the command line identifies the user: in
any run of the server, on a connection that has not logged in, in chunks of any size. -/
theorem login_iff {handlers : OrdMap Fd Handler}
    (h : Running md5 handlers passwordFile path cmdLineSpecs found server) (options : Client.Options)
    (hmessage : (Message.authenticationRequest options.makeAuthenticationRequest).Fits)
    (hlength : (Message.authenticationRequest options.makeAuthenticationRequest).encode.length < 2 ^ 31)
    {interactor : Interactor} (hget : server.interactors[fd]? = some interactor)
    (hnew : interactor.user = none) (hready : interactor.reader.Takes []) {bufs : List Bytes}
    (hwire : bufs.flatten =
      (Message.authenticationRequest options.makeAuthenticationRequest).wire)
    (hne : ∀ buf ∈ bufs, buf ≠ [])
    (hfits : Outcome.Meets (ServerState.receive md5 fd) (ServerState.ChunkFits fd) bufs server)
    (user : Bytes) :
    .authenticated fd user ∈ (server.onRead md5 fd bufs).events ↔
      options.Identify md5 passwordFile (linesInForce passwordFile found) user := by
  have hbufs : bufs ≠ [] := by
    rintro rfl
    cases hwire
  obtain ⟨reader, -, hloop⟩ :=
    ServerState.receives_of_wire md5 hget hready hmessage hlength hbufs (by simpa using hwire) hne hfits
  have hread : server.onRead md5 fd bufs = Outcome.forEach (ServerState.receive md5 fd) bufs server := by
    unfold ServerState.onRead
    rw [hget]
  have hnew' : ({ interactor with reader } : Interactor).user = none := hnew
  rw [hread, hloop, authenticated_mem_processMessage_iff hnew']
  show server.authenticationManager.authenticate md5 _ = _ ↔ _
  rw [h.goesBy.passwords.authenticate_iff ?_, vouched_makeAuthenticationRequest_iff]
  rintro rfl
  exact linesInForce_of_no_file _

/-- Tom's login comes in two pieces. -/
theorem login_of_two_pieces :
    .authenticated 4 (ascii "tom") ∈ ((withTom [.event ServerState.accepted]).state.onRead zeroDigest 4
        [tomsLogin.take 7, tomsLogin.drop 7]).events ↔
      tomsOptions.Identify zeroDigest (some (ascii "passwords"))
        (linesInForce (some (ascii "passwords")) [ServerState.tomsPassword]) (ascii "tom") := by
  have hget : (withTom [.event ServerState.accepted]).state.interactors[4]? =
      some ⟨100, 4, ascii "host", ascii "P", .empty, none⟩ := by
    decide +kernel
  refine login_iff (running_withTom _ (by decide +kernel)) tomsOptions (by decide +kernel)
    (by decide +kernel) hget rfl FrameReader.takes_empty (by decide +kernel) (by decide +kernel) ?_
    (ascii "tom")
  refine ⟨ServerState.chunkFits_of_retained (n := 0) (by decide +kernel) (by decide +kernel),
    fun _ => ⟨ServerState.chunkFits_of_retained (n := 7) (by decide +kernel) (by decide +kernel),
      fun _ => trivial⟩⟩

end Connection

end SquawkBus
