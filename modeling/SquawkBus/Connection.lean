import SquawkBus.Client.Line
import SquawkBus.Library.Run

/-!
# The two ends of a connection

The server, with whatever else it serves, and the client at one of its descriptors. What one end writes
the other reads in the same order, in pieces of any size and as late as it likes; the steps of the two
loops, and of the other clients and signals that the server attends to, come in any order.

The bytes of a message are at every moment where they should be: in the queue of the sender, on their
way, or read by the receiver (`Conserved`), whatever becomes of them there. An end that hears the other
well makes nothing of them but the messages sent, in order and each once (`FaithfulServer`,
`FaithfulClient`). What the server sends does not break the client (`clientEnd_run`).
-/

namespace SquawkBus

open SquawkBus.Io SquawkBus.Messages SquawkBus.Serialization SquawkBus.Server SquawkBus.Client

/-! ## The two ends -/

/-- The server, the client at one of its descriptors, and the bytes on their way between them. -/
structure Connection (ρ : Type) [RegexEngine ρ] where
  server : ServerState ρ
  client : SquawkbusClient
  /-- What has ended the server. -/
  serverEnd : Option Fault
  /-- What has ended the client. -/
  clientEnd : Option Halt
  toServer : Bytes
  toClient : Bytes
  serverLine : Line
  clientLine : Line

/-- A step of one of the two loops. -/
inductive ConnectionStep (ρ : Type) [RegexEngine ρ] where
  | server (step : LoopStep ρ)
  | client (step : SquawkbusClient.ClientStep)

variable {ρ : Type} [RegexEngine ρ]

/-- **A server that has just accepted a connection**, in any run of its loop. -/
inductive Accepted (md5 : Bytes → Bytes) (fd : Fd) : ServerState ρ → Prop
  | intro {handlers : OrdMap Fd Handler} {authenticationManager : AuthenticationManager}
      {authorizationManager : AuthorizationManager ρ} {steps : List (LoopStep ρ)}
      {server : ServerState ρ} {event : PollEvent} {client : Server.Client}
      (hlisteners : ∀ entry ∈ handlers.toList, entry.2.isListener)
      (hreturns : (Outcome.forEach (ServerState.loopStep md5) steps
        (.new handlers authenticationManager authorizationManager)).fault = none)
      (hserver : (Outcome.forEach (ServerState.loopStep md5) steps
        (.new handlers authenticationManager authorizationManager)).state = server)
      (haccepts : server.accepts (.event event) = some client) (hfd : client.fd = fd)
      (hnew : server.MakesInteractor (.event event)) :
      Accepted md5 fd (server.loopStep md5 (.event event)).state

namespace Connection

/-! ## The steps -/

/-- The connection before the first step: the client has its login to send. -/
def opened (server : ServerState ρ) (request : AuthenticationRequest) : Connection ρ :=
  let started := (SquawkbusClient.new request).onStartup
  { server, client := started.state, serverEnd := none, clientEnd := started.fault
    toServer := [], toClient := []
    serverLine := .new, clientLine := started.events.foldl Client.note .new }

variable (md5 : Bytes → Bytes) (fd : Fd)

/-- A step of one end, and what it reads and writes. -/
def next (connection : Connection ρ) : ConnectionStep ρ → Connection ρ
  | .server step =>
      let outcome := connection.server.loopStep md5 step
      { connection with
        server := outcome.state
        serverEnd := outcome.fault
        toServer := connection.toServer.drop (connection.server.readAt fd step).length
        toClient := connection.toClient ++ connection.server.writtenAt md5 fd step
        serverLine := ServerState.lineStep md5 fd connection.serverLine connection.server step }
  | .client step =>
      let outcome := connection.client.clientStep step
      { connection with
        client := outcome.state
        clientEnd := outcome.fault
        toClient := connection.toClient.drop (connection.client.readFrom step).length
        toServer := connection.toServer ++ connection.client.writtenTo step
        clientLine := SquawkbusClient.lineStep connection.clientLine connection.client step }

/-- An end that goes on may take a step, and reads what is there to be read. The step of the server is
any that leaves the descriptor to this connection. -/
def Possible (connection : Connection ρ) : ConnectionStep ρ → Prop
  | .server step =>
      connection.serverEnd = none ∧ connection.server.readAt fd step <+: connection.toServer ∧
        ∀ client ∈ connection.server.accepts step, client.fd ≠ fd
  | .client step =>
      connection.clientEnd = none ∧ connection.client.readFrom step <+: connection.toClient

/-- **The server hears the client well**: what it reads from it fits into the reader, and no exception
comes of a chunk that others of the same read follow. -/
def ServerHears (connection : Connection ρ) : ConnectionStep ρ → Prop
  | .server step => ServerState.HearsWell md5 fd connection.server step
  | .client _ => True

/-- **The client hears the server well**: what it reads fits into the reader. -/
def ClientHears (connection : Connection ρ) : ConnectionStep ρ → Prop
  | .server _ => True
  | .client step => SquawkbusClient.Fits connection.client step

variable {md5 fd} {connection : Connection ρ}

/-! ## The bytes between the ends -/

/-- **What is between the ends**, whatever they make of it: what an end has read, and what is on its way
to it, is what the other has written. -/
structure Passing (fd : Fd) (connection : Connection ρ) : Prop where
  serverOutgoing : ServerState.Outgoing fd connection.server connection.serverLine
  clientOutgoing : SquawkbusClient.Outgoing connection.client connection.clientLine
  toServer : connection.serverLine.received ++ connection.toServer = connection.clientLine.written
  toClient : connection.clientLine.received ++ connection.toClient = connection.serverLine.written
  welcome : ∀ message ∈ connection.serverLine.sent, message ≠ .authenticationResponse ⟨false⟩

/-- What is read is taken from the bytes on their way, and what is written joins them. -/
theorem append_drop_of_isPrefix {received read way written : Bytes} (h : received ++ way = written)
    (hread : read <+: way) : (received ++ read) ++ way.drop read.length = written := by
  obtain ⟨rest, rfl⟩ := hread
  rw [List.drop_left, List.append_assoc, h]

theorem Passing.next (h : connection.Passing fd) {step : ConnectionStep ρ}
    (hpossible : connection.Possible fd step) : (connection.next md5 fd step).Passing fd := by
  cases step with
  | server step =>
      obtain ⟨-, hread, hstays⟩ := hpossible
      obtain ⟨hreceived, hwritten⟩ := ServerState.lineStep_bytes md5 hstays connection.serverLine
      refine ⟨h.serverOutgoing.loopStep md5 step, h.clientOutgoing, ?_, ?_,
        fun message hmem hrefusal => ?_⟩
      · exact (congrArg (· ++ _) hreceived).trans (append_drop_of_isPrefix h.toServer hread)
      · show connection.clientLine.received ++ (connection.toClient ++ _) = _
        rw [← List.append_assoc, h.toClient]
        exact hwritten.symm
      · rcases ServerState.mem_sent_foldl_note hmem with hmem | hmem
        · exact h.welcome message hmem hrefusal
        · subst hrefusal
          rcases ServerState.sent_of_loopStep md5 hmem with hanswer | ⟨clients, hforwarded⟩
          · cases hanswer
          · exact hforwarded
  | client step =>
      obtain ⟨-, hread⟩ := hpossible
      obtain ⟨hreceived, hwritten⟩ :=
        SquawkbusClient.lineStep_bytes connection.clientLine connection.client step
      refine ⟨h.serverOutgoing, h.clientOutgoing.clientStep step, ?_, ?_, h.welcome⟩
      · show connection.serverLine.received ++ (connection.toServer ++ _) = _
        rw [← List.append_assoc, h.toServer]
        exact hwritten.symm
      · exact (congrArg (· ++ _) hreceived).trans (append_drop_of_isPrefix h.toClient hread)

/-- **The bytes are read in the order they were sent.** -/
theorem Passing.inOrder (h : connection.Passing fd) :
    connection.serverLine.received <+: connection.clientLine.sent.flatMap Message.wire ∧
      connection.clientLine.received <+: connection.serverLine.sent.flatMap Message.wire := by
  refine ⟨?_, ?_⟩
  · rw [← h.clientOutgoing.queued, ← h.toServer, List.append_assoc]
    exact List.prefix_append _ _
  · exact List.IsPrefix.trans ⟨_, h.toClient⟩ h.serverOutgoing.inOrder

/-- **Where the bytes sent are**: those that have been read first, then what is on its way, and what waits
in the queue at the end that sent them. -/
structure Conserved (fd : Fd) (connection : Connection ρ) : Prop where
  toServer : connection.clientLine.sent.flatMap Message.wire =
    connection.serverLine.received ++ connection.toServer ++
      ByteQueue.waiting connection.client.socket.writeQueue
  toClient : ∀ handler, connection.server.handlers[fd]? = some (.socket handler) →
    connection.serverLine.sent.flatMap Message.wire =
      connection.clientLine.received ++ connection.toClient ++ ByteQueue.waiting handler.writeQueue

theorem Passing.conserved (h : connection.Passing fd) : connection.Conserved fd := by
  refine ⟨?_, fun handler hget => ?_⟩
  · rw [← h.clientOutgoing.queued, ← h.toServer]
  · rw [← h.serverOutgoing.queued handler hget, ← h.toClient]

/-! ## What the ends make of them -/

/-- **What the server has made of the bytes** of a client that it hears well. -/
structure Heeded (fd : Fd) (connection : Connection ρ) : Prop where
  hearing : connection.serverEnd = none →
    ServerState.Hearing fd connection.server connection.serverLine
  heard : ∃ passed, connection.serverLine.Heard passed

theorem Heeded.next (h : connection.Heeded fd) {step : ConnectionStep ρ}
    (hpossible : connection.Possible fd step) (hhears : connection.ServerHears md5 fd step) :
    (connection.next md5 fd step).Heeded fd := by
  cases step with
  | server step =>
      obtain ⟨hheard, hreturns⟩ := (h.hearing hpossible.1).loopStep md5 hhears
      exact ⟨hreturns, hheard⟩
  | client step => exact ⟨h.hearing, h.heard⟩

/-- **What the client has made of the bytes** of the server. -/
structure Attentive (connection : Connection ρ) : Prop where
  incoming : connection.clientEnd = none →
    SquawkbusClient.Incoming connection.client connection.clientLine
  heard : ∃ passed, connection.clientLine.Heard passed

theorem Attentive.next (h : connection.Attentive) {step : ConnectionStep ρ}
    (hpossible : connection.Possible fd step) (hhears : connection.ClientHears step) :
    (connection.next md5 fd step).Attentive := by
  cases step with
  | server step => exact ⟨h.incoming, h.heard⟩
  | client step =>
      obtain ⟨hheard, hreturns⟩ := (h.incoming hpossible.1).clientStep hhears
      exact ⟨hreturns, hheard⟩

/-- None of the frames of the server is fatal. -/
theorem Passing.not_fatal (h : connection.Passing fd) {passed : List Bytes}
    (hinOrder : passed.flatten <+: connection.clientLine.received ++ connection.toClient) :
    ¬ ∃ frame ∈ (LengthPrefix.Reader.run networkLong passed).out, SquawkbusClient.Fatal frame := by
  rintro ⟨frame, hframe, hfatal⟩
  rw [h.toClient] at hinOrder
  obtain ⟨message, hmem, rfl⟩ := List.mem_map.mp ((Message.ofFrames_run h.serverOutgoing.sendable
    (hinOrder.trans h.serverOutgoing.inOrder)).1.subset hframe)
  exact h.welcome message hmem
    (hfatal message (Message.ofFrame_encode (h.serverOutgoing.sendable message hmem).1))

/-- Serving its socket does not end the client, unless a signal does. -/
theorem Attentive.ends (h : connection.Attentive) (hpassing : connection.Passing fd)
    {event : SquawkbusClient.SocketEvent}
    (hpossible : connection.Possible fd (.client (.socket event)))
    (hhears : connection.ClientHears (.client (.socket event))) {halt : Halt}
    (hends : (connection.client.clientStep (.socket event)).fault = some halt) :
    halt = .fault .killed ∧ (ReadResult.sigpipe ∈ event.reads ∨
      WriteResult.sigpipe ∈ event.writes ∨ event.pending = some .sigpipe) := by
  obtain ⟨hgoes, hread⟩ := hpossible
  obtain ⟨⟨passed, hheard, hcause⟩, -⟩ := (h.incoming hgoes).handleSocketRead hhears
  change ((connection.client.handleSocketRead event).1.andThen
    (SquawkbusClient.handleSocketWrite event _)).fault = some halt at hends
  cases hfault : (connection.client.handleSocketRead event).1.fault with
  | none =>
      rw [Outcome.andThen_of_ok hfault] at hends
      obtain ⟨hkilled, hsignal⟩ := SquawkbusClient.fault_handleSocketWrite hends
      exact ⟨hkilled, .inr hsignal⟩
  | some halt' =>
      rw [Outcome.andThen_of_fault hfault, hfault] at hends
      obtain ⟨hreceived, -, -⟩ :=
        Client.foldl_note (connection.client.handleSocketRead event).1.events
          { connection.clientLine with received := connection.clientLine.received ++
              connection.client.readFrom (.socket event) }
      have hnotFatal := hpassing.not_fatal ((hreceived ▸ hheard.inOrder).trans
        ((List.prefix_append_right_inj _).mpr hread))
      obtain ⟨hkilled, hsignal⟩ := (hcause halt' hfault).resolve_left hnotFatal
      exact ⟨(Option.some.inj hends).symm.trans hkilled, .inl hsignal⟩

/-- **The server is faithful to the client**: it has processed the first of the messages that the client
has sent. On an open connection what it has read beyond them waits in its reader. -/
structure FaithfulServer (fd : Fd) (connection : Connection ρ) : Prop where
  processed : connection.serverLine.processed <+: connection.clientLine.sent
  pending : connection.serverEnd = none → connection.server.isOpenAt fd = some true →
    ∀ interactor, connection.server.interactors[fd]? = some interactor →
      connection.serverLine.received =
        connection.serverLine.processed.flatMap Message.wire ++ interactor.reader.pending

theorem Heeded.faithful (h : connection.Heeded fd) (hpassing : connection.Passing fd) :
    connection.FaithfulServer fd := by
  refine ⟨?_, fun hgoes hopen interactor hget => ?_⟩
  · obtain ⟨passed, hheard⟩ := h.heard
    exact hheard.processed_prefix hpassing.clientOutgoing.sendable hpassing.inOrder.1
  · obtain ⟨passed, hheard, htakes, hall⟩ := (h.hearing hgoes).incoming
    rw [(htakes interactor hget).pending,
      ← hheard.wire_append_pending hpassing.clientOutgoing.sendable hpassing.inOrder.1 (hall hopen)]

/-- **The client is faithful to the server** in the same way. -/
structure FaithfulClient (connection : Connection ρ) : Prop where
  processed : connection.clientLine.processed <+: connection.serverLine.sent
  pending : connection.clientEnd = none → connection.client.socket.isOpen = true →
    connection.clientLine.received =
      connection.clientLine.processed.flatMap Message.wire ++ connection.client.reader.pending

theorem Attentive.faithful (h : connection.Attentive) (hpassing : connection.Passing fd) :
    connection.FaithfulClient := by
  refine ⟨?_, fun hgoes hopen => ?_⟩
  · obtain ⟨passed, hheard⟩ := h.heard
    exact hheard.processed_prefix hpassing.serverOutgoing.sendable hpassing.inOrder.2
  · obtain ⟨passed, hheard, htakes, hall⟩ := h.incoming hgoes
    rw [htakes.pending,
      ← hheard.wire_append_pending hpassing.serverOutgoing.sendable hpassing.inOrder.2 (hall hopen)]

/-! ## The beginning of a connection -/

/-- At first nothing has been read, and the login of the client waits. -/
theorem begins_opened {server : ServerState ρ} (h : Accepted md5 fd server)
    (request : AuthenticationRequest) :
    (opened server request).Passing fd ∧ (opened server request).Heeded fd ∧
      (opened server request).Attentive := by
  obtain ⟨hlisteners, hreturns, hserver, haccepts, hfd, hnew⟩ := h
  rename_i handlers authenticationManager authorizationManager steps before event client
  have hattended : ServerState.AllAttended before := by
    rw [← hserver]
    exact Outcome.forEach_keeps_of_returns (P := ServerState.AllAttended)
      (fun s step hs hstep => hs.loopStep hstep)
      (ServerState.allAttended_new hlisteners authenticationManager authorizationManager) hreturns
  have howed : ServerState.Outgoing fd before (ServerState.lineAt md5 fd steps
      (.new handlers authenticationManager authorizationManager)) := by
    rw [← hserver]
    exact Outcome.forEach_summary (fun step _ _ h => h.loopStep md5 step) steps
      (ServerState.outgoing_new hlisteners authenticationManager authorizationManager fd)
  -- The step is the making of the connection.
  have hstep : before.loopStep md5 (.event event) = before.addHandler client := by
    have hlistener : before.isListenerAt event.fd = some true := by
      by_contra hother
      simp [ServerState.accepts, hother] at haccepts
    rcases ServerState.handleEvent_of_listener md5 hlistener with ⟨client', haccepts', heq⟩ |
      ⟨hnone, -⟩
    · obtain rfl := Option.some.inj (haccepts.symm.trans haccepts')
      exact heq
    · cases haccepts.symm.trans hnone
  have hfresh := hnew client haccepts
  subst hfd
  rw [hstep]
  have hsent : SquawkbusClient.Outgoing (SquawkbusClient.new request).onStartup.state
      ((SquawkbusClient.new request).onStartup.events.foldl note .new) :=
    SquawkbusClient.keepsOutgoing_send _ _ _ (SquawkbusClient.outgoing_new request)
  have hheard : SquawkbusClient.Incoming (SquawkbusClient.new request).onStartup.state
      ((SquawkbusClient.new request).onStartup.events.foldl note .new) :=
    SquawkbusClient.keepsIncoming_send _ _ _ (SquawkbusClient.incoming_new request)
  have hbegun := ServerState.incoming_addHandler hfresh
  have howes := ServerState.keepsOutgoing_addHandler before client.fd client _ howed
  have hline : (before.addHandler client).events.foldl (Server.note client.fd)
      (ServerState.lineAt md5 client.fd steps
        (.new handlers authenticationManager authorizationManager)) = .new := if_pos rfl
  rw [hline] at howes
  obtain ⟨hreceived, hwritten, -⟩ :=
    Client.foldl_note (SquawkbusClient.new request).onStartup.events .new
  refine ⟨⟨howes, hsent, hwritten.symm, (List.append_nil _).trans hreceived,
    fun _ hmem => absurd hmem List.not_mem_nil⟩, ?_, ?_⟩
  · exact ⟨fun _ => ⟨hattended.addHandler client, hbegun⟩, ⟨_, hbegun.choose_spec.1⟩⟩
  · exact ⟨fun _ => hheard, ⟨_, hheard.choose_spec.1⟩⟩

/-! ## Every run -/

section

variable {server : ServerState ρ} {request : AuthenticationRequest} {steps : List (ConnectionStep ρ)}

theorem passing_run (h : Accepted md5 fd server)
    (hsteps : Run.Meets (next md5 fd) (Possible fd) (opened server request) steps) :
    (steps.foldl (next md5 fd) (opened server request)).Passing fd :=
  Run.invariant (fun _ _ hs hok => hs.next hok) (begins_opened h request).1 hsteps

theorem heeded_run (h : Accepted md5 fd server)
    (hsteps : Run.Meets (next md5 fd) (Possible fd) (opened server request) steps)
    (hhears : Run.Meets (next md5 fd) (ServerHears md5 fd) (opened server request) steps) :
    (steps.foldl (next md5 fd) (opened server request)).Heeded fd :=
  Run.invariant (fun _ _ hs hok => hs.next hok.1 hok.2) (begins_opened h request).2.1
    (hsteps.and hhears)

theorem attentive_run (h : Accepted md5 fd server)
    (hsteps : Run.Meets (next md5 fd) (Possible fd) (opened server request) steps)
    (hhears : Run.Meets (next md5 fd) ClientHears (opened server request) steps) :
    (steps.foldl (next md5 fd) (opened server request)).Attentive :=
  Run.invariant (fun _ _ hs hok => hs.next hok.1 hok.2) (begins_opened h request).2.2
    (hsteps.and hhears)

end

/-! ## A login -/

/-- A client at descriptor 4 that is about to log in. -/
def atLogin : Connection PlainRegex :=
  opened (ServerState.listening.loopStep zeroDigest (.event ServerState.accepted)).state
    ⟨ascii "none", []⟩

theorem accepted_listening : Accepted zeroDigest 4
    (ServerState.listening.loopStep zeroDigest (.event ServerState.accepted)).state :=
  @Accepted.intro PlainRegex _ zeroDigest 4 (Std.ExtTreeMap.insert ∅ 3 (.listener true)) (.new none)
    (.new none []) [] ServerState.listening ServerState.accepted ⟨4, ascii "host", 100, ascii "P"⟩
    (by decide +kernel) rfl rfl
    (by
      have hlistener : ServerState.listening.isListenerAt 3 = some true := by decide +kernel
      simp [ServerState.accepts, ServerState.accepted, hlistener, Except.toOption])
    rfl fun _ _ => by simp [ServerState.listening, ServerState.new]

/-- The client reads the answer. -/
def reading : SquawkbusClient.SocketEvent := ⟨true, false, [.data ServerState.response], [], none⟩

/-- The login is written, read and answered. -/
def answering : List (ConnectionStep PlainRegex) :=
  [.client (.socket ⟨false, true, [], [.written login.length], none⟩),
    .server (.event { ServerState.received [login] with writes := [.written ServerState.response.length] })]

theorem possible_answering : Run.Meets (next zeroDigest 4) (Possible 4) atLogin
    (answering ++ [ConnectionStep.client (.socket reading)]) := by
  simp only [answering, List.cons_append, List.nil_append, Run.meets_cons]
  refine ⟨⟨by decide +kernel, by decide +kernel⟩, ⟨by decide +kernel, by decide +kernel, ?_⟩,
    ⟨by decide +kernel, by decide +kernel⟩, Run.meets_nil _ _ _⟩
  intro client haccepts
  simp [ServerState.accepts, ServerState.received, Except.toOption] at haccepts

theorem serverHears_answering : Run.Meets (next zeroDigest 4) (ServerHears zeroDigest 4) atLogin
    (answering ++ [ConnectionStep.client (.socket reading)]) := by
  simp only [answering, List.cons_append, List.nil_append, Run.meets_cons]
  refine ⟨trivial, ServerState.hearsWell_received (ServerState.chunkFits_of_retained (n := 0) ?_ ?_) _,
    trivial, Run.meets_nil _ _ _⟩
  · decide +kernel
  · decide +kernel

theorem clientHears_answering : Run.Meets (next zeroDigest 4) ClientHears atLogin
    (answering ++ [ConnectionStep.client (.socket reading)]) := by
  simp only [answering, List.cons_append, List.nil_append, Run.meets_cons]
  refine ⟨?_, trivial, ?_, Run.meets_nil _ _ _⟩
  · rintro event ⟨⟩ hreadable
    cases hreadable
  · rintro event ⟨⟩ -
    decide +kernel

/-! ## The results -/

/-- **Neither end ever processes anything but what the other has sent**, in order and each message once,
however the steps of the two loops and the pieces of the streams fall. The server has to hear the client
well for this, and the client the server: an exception that comes of a chunk makes the server skip the
others of the same read. -/
theorem heard_run {server : ServerState ρ} (h : Accepted md5 fd server)
    (request : AuthenticationRequest) {steps : List (ConnectionStep ρ)}
    (hsteps : Run.Meets (next md5 fd) (Possible fd) (opened server request) steps) :
    let connection := steps.foldl (next md5 fd) (opened server request)
    (Run.Meets (next md5 fd) (ServerHears md5 fd) (opened server request) steps →
        connection.FaithfulServer fd) ∧
      (Run.Meets (next md5 fd) ClientHears (opened server request) steps →
        connection.FaithfulClient) := by
  intro connection
  have hpassing := passing_run h hsteps
  constructor
  · intro hhears
    exact (heeded_run h hsteps hhears).faithful hpassing
  · intro hhears
    exact (attentive_run h hsteps hhears).faithful hpassing

theorem heard_answering :
    ((answering ++ [ConnectionStep.client (.socket reading)]).foldl (next zeroDigest 4)
        atLogin).FaithfulServer 4 ∧
      ((answering ++ [ConnectionStep.client (.socket reading)]).foldl (next zeroDigest 4)
        atLogin).FaithfulClient :=
  have hheard := heard_run accepted_listening ⟨ascii "none", []⟩ possible_answering
  ⟨hheard.1 serverHears_answering, hheard.2 clientHears_answering⟩

/-- **No byte is lost**, doubled or moved between the ends, at any moment of any run, whatever they make
of the bytes. -/
theorem conserved_run {server : ServerState ρ} (h : Accepted md5 fd server)
    (request : AuthenticationRequest) {steps : List (ConnectionStep ρ)}
    (hsteps : Run.Meets (next md5 fd) (Possible fd) (opened server request) steps) :
    (steps.foldl (next md5 fd) (opened server request)).Conserved fd :=
  (passing_run h hsteps).conserved

theorem conserved_answering :
    ((answering ++ [ConnectionStep.client (.socket reading)]).foldl (next zeroDigest 4)
      atLogin).Conserved 4 :=
  conserved_run accepted_listening ⟨ascii "none", []⟩ possible_answering

end Connection

end SquawkBus
