import SquawkBus.Client.SquawkbusClient
import SquawkBus.Server.Incoming

/-!
# The client's end of a connection

What the client asks for goes out in order, and what comes in is shown in order. A message that cannot
be read ends the client, where the server would go on without the bytes behind it; so nothing is asked
of the reads but that they fit.
-/

namespace SquawkBus.Client

open SquawkBus.Io SquawkBus.Messages SquawkBus.Serialization

/-! ## The record of a client -/

/-- What an event has to do with the connection. -/
def note (line : Line) : ClientEvent → Line
  | .sent message => { line with sent := line.sent ++ [message] }
  | .processed message => { line with processed := line.processed ++ [message] }
  | .printed _ => line

/-- The messages that have been made of frames. -/
def processedIn (events : List ClientEvent) : List Message :=
  events.filterMap fun
    | .processed message => some message
    | _ => none

theorem foldl_note (events : List ClientEvent) (line : Line) :
    (events.foldl note line).received = line.received ∧
      (events.foldl note line).written = line.written ∧
        (events.foldl note line).processed = line.processed ++ processedIn events := by
  induction events generalizing line with
  | nil => exact ⟨rfl, rfl, (List.append_nil _).symm⟩
  | cons event events ih =>
      obtain ⟨hreceived, hwritten, hprocessed⟩ := ih (note line event)
      rw [List.foldl_cons, hreceived, hwritten, hprocessed]
      cases event <;> simp [note, processedIn]

namespace SquawkbusClient

/-- The bytes that a step reads from the socket. -/
def readFrom (client : SquawkbusClient) : ClientStep → Bytes
  | .socket event => if event.readable then (client.socket.read event.reads).2.flatten else []
  | _ => []

/-- The bytes that a step writes to the socket. -/
def writtenTo (client : SquawkbusClient) : ClientStep → Bytes
  | .socket event =>
      let (outcome, canContinue) := client.handleSocketRead event
      if outcome.fault.isNone && canContinue && event.writable then
        outcome.state.socket.written event.writes
      else []
  | _ => []

/-- The record after a step. -/
def lineStep (line : Line) (client : SquawkbusClient) (step : ClientStep) : Line :=
  let line := (client.clientStep step).events.foldl note
    { line with received := line.received ++ client.readFrom step }
  { line with written := line.written ++ client.writtenTo step }

variable {client client' : SquawkbusClient} {line : Line} {passed : List Bytes}

/-! ## What goes out -/

/-- **What has gone out and what waits is what has been sent.** -/
structure Outgoing (client : SquawkbusClient) (line : Line) : Prop where
  queued : line.written ++ ByteQueue.waiting client.socket.writeQueue = line.sent.flatMap Message.wire
  sendable : line.Sendable

theorem Outgoing.congr (h : Outgoing client line)
    (hsame : client'.socket.writeQueue = client.socket.writeQueue) : Outgoing client' line := by
  refine ⟨?_, h.sendable⟩
  rw [hsame]
  exact h.queued

/-- What has been read and what has come of it do not matter to what goes out. -/
theorem Outgoing.ofLine (h : Outgoing client line) {line' : Line} (hsent : line'.sent = line.sent)
    (hwritten : line'.written = line.written) : Outgoing client line' := by
  refine ⟨?_, ?_⟩
  · rw [hsent, hwritten]
    exact h.queued
  · unfold Line.Sendable
    rw [hsent]
    exact h.sendable

/-- The call keeps what is owed to the server. -/
abbrev KeepsOutgoing (client : SquawkbusClient) (outcome : ClientOutcome) : Prop :=
  outcome.Keeps note Outgoing client

theorem keepsOutgoing_send (client : SquawkbusClient) (message : Message) :
    KeepsOutgoing client (client.send message) := by
  unfold send
  split
  · next buf hbuf =>
    obtain ⟨hfits, hlength, rfl⟩ := Message.wire_of_serialize hbuf
    refine Outcome.keeps_emit fun line hline => ⟨?_, hline.sendable.snoc ⟨hfits, hlength⟩⟩
    show line.written ++ ByteQueue.waiting (client.socket.writeQueue ++ [(message.wire, 0)]) =
      (line.sent ++ [message]).flatMap Message.wire
    rw [ByteQueue.waiting_push, ← List.append_assoc, hline.queued, List.flatMap_append,
      List.flatMap_singleton]
  · exact Outcome.keeps_fail (fun _ h => h) _

@[simp] theorem catchStdException_state (outcome : ClientOutcome) :
    (catchStdException outcome).state = outcome.state := by
  unfold catchStdException
  split <;> rfl

@[simp] theorem catchStdException_events (outcome : ClientOutcome) :
    (catchStdException outcome).events = outcome.events := by
  unfold catchStdException
  split <;> rfl

/-! ### The calls of a read

What holds of the write queue and the record so far is kept by all that is done with what is read, if
it is kept by the requests that commands make and by what is not sent. -/

section

variable {τ : Type} {note : τ → ClientEvent → τ} {inv : SquawkbusClient → τ → Prop}
  (hsend : ∀ (client : SquawkbusClient) (message : Message),
    (∀ request, message ≠ .authenticationRequest request) →
      (client.send message).Keeps note inv client)
  (hcongr : ∀ (client client' : SquawkbusClient) t, inv client t →
    client'.socket.writeQueue = client.socket.writeQueue → inv client' t)
  (hevent : ∀ client t event, (∀ message, event ≠ .sent message) → inv client t →
    inv client (note t event))

include hsend hcongr hevent in
theorem keeps_handleCommand (client : SquawkbusClient) (buf : Bytes) :
    (client.handleCommand buf).Keeps note inv client := by
  unfold handleCommand publish
  simp only
  split
  · exact Outcome.keeps_done fun _ h => hcongr _ _ _ h rfl
  · repeat' split
    all_goals first
      | exact hsend client _ (by simp)
      | exact Outcome.keeps_emit fun _ h => hevent _ _ _ (by simp [puts]) h

include hevent in
theorem keeps_showMessage (client : SquawkbusClient) (message : Message) :
    (client.showMessage message).Keeps note inv client := by
  unfold showMessage
  split
  · split
    · exact fun _ h => hevent _ _ _ (by simp) (hevent _ _ _ (by simp [puts]) h)
    · exact fun _ h => hevent _ _ _ (by simp [puts]) h
  · exact Outcome.keeps_emit fun _ h => hevent _ _ _ (by simp [puts]) h

include hcongr hevent in
theorem keeps_handleFrame (client : SquawkbusClient) :
    client.handleFrame.Keeps note inv client := by
  unfold handleFrame
  split
  · exact Outcome.keeps_fail (fun _ h => h) _
  · simp only
    split
    · intro t ht
      exact hcongr _ _ _ ht rfl
    · next message _ _ =>
      refine Outcome.Keeps.andThen ?_ (keeps_showMessage hevent _ message)
      exact Outcome.keeps_emit fun _ h => hevent _ _ _ (by simp) (hcongr _ _ _ h rfl)

include hcongr hevent in
theorem keeps_handleMessage (client : SquawkbusClient) (buf : Bytes) :
    (client.handleMessage buf).Keeps note inv client := by
  unfold handleMessage
  split
  · exact Outcome.keeps_fail (fun _ h => h) _
  · next reader _ =>
    intro t ht
    have hframes : ∀ s, (Outcome.forEach (fun _ => handleFrame) reader.frames s).Keeps note inv s :=
      Outcome.keeps_forEach (fun _ s => keeps_handleFrame hcongr hevent s) reader.frames
    exact hframes _ t (hcongr _ _ _ ht rfl)

include hsend hcongr hevent in
theorem keeps_readConsole (client : SquawkbusClient) (results : List ReadResult) :
    (client.readConsole results).Keeps note inv client := by
  unfold readConsole
  split
  · exact Outcome.keeps_done fun _ h => hcongr _ _ _ h rfl
  · next console _ =>
    intro t ht
    have hcommands : ∀ s, (Outcome.forEach handleCommand console.readQueue s).Keeps note inv s :=
      Outcome.keeps_forEach (fun buf s => keeps_handleCommand hsend hcongr hevent s buf)
        console.readQueue
    rw [catchStdException_state, catchStdException_events]
    exact hcommands _ t (hcongr _ _ _ ht rfl)

include hcongr hevent in
theorem keeps_handleSocketRead (client : SquawkbusClient) (event : SocketEvent) :
    (client.handleSocketRead event).1.Keeps note inv client := by
  unfold handleSocketRead
  split
  · intro t ht
    have hread := hcongr _ { client with socket := (client.socket.read event.reads).1 } _ ht
      (client.socket.writeQueue_read event.reads)
    have hmessages : ∀ bufs s, (Outcome.forEach handleMessage bufs s).Keeps note inv s :=
      Outcome.keeps_forEach fun buf s => keeps_handleMessage hcongr hevent s buf
    simp only [readSocket, catchStdException_state, catchStdException_events]
    split
    · exact hread
    · exact hmessages _ _ t hread
  · exact Outcome.keeps_done fun _ h => h

end

/-! ### Writing, and the steps of the loop -/

/-- What is not sent is not owed. -/
theorem Outgoing.snoc (h : Outgoing client line) (event : ClientEvent)
    (hevent : ∀ message, event ≠ .sent message) : Outgoing client (note line event) := by
  cases event with
  | sent message => exact absurd rfl (hevent message)
  | processed message => exact h.ofLine rfl rfl
  | printed text => exact h

/-- **A write** moves bytes from the queue to the socket. -/
theorem Outgoing.writeSocket (h : Outgoing client line) (results : List WriteResult)
    (pending : Option WriteResult) :
    Outgoing (client.writeSocket results pending).state
      { line with written := line.written ++ client.socket.written results } := by
  have hmoved : line.written ++ client.socket.written results ++
      ByteQueue.waiting (client.socket.write results pending).1.writeQueue =
        line.sent.flatMap Message.wire := by
    rw [List.append_assoc, SocketHandler.writeQueue_write, SocketHandler.written_append_waiting]
    exact h.queued
  unfold SquawkbusClient.writeSocket
  simp only [catchStdException_state]
  split <;> exact ⟨hmoved, h.sendable⟩

@[simp] theorem events_handleSocketWrite (client : SquawkbusClient) (event : SocketEvent)
    (canContinue : Bool) : (client.handleSocketWrite event canContinue).events = [] := by
  unfold handleSocketWrite
  split
  · unfold writeSocket
    simp only [catchStdException_events]
    split <;> rfl
  · rfl

/-- What the write throws is caught. Only a signal that it raises ends it. -/
theorem fault_handleSocketWrite {client : SquawkbusClient} {event : SocketEvent} {canContinue : Bool}
    {halt : Halt} (h : (client.handleSocketWrite event canContinue).fault = some halt) :
    halt = .fault .killed ∧ (WriteResult.sigpipe ∈ event.writes ∨ event.pending = some .sigpipe) := by
  unfold handleSocketWrite at h
  split at h
  · unfold writeSocket catchStdException at h
    simp only at h
    cases hended : (client.socket.write event.writes event.pending).2 with
    | none =>
        rw [hended] at h
        cases h
    | some fault =>
        have hends := SocketHandler.writeEnds_of_write hended
        rw [hended] at h
        cases fault with
        | thrown e =>
            have hcaught : e.isStdException := hends
            simp [hcaught] at h
        | killed => exact ⟨(Option.some.inj h).symm, hends⟩
        | terminated => exact hends.elim
        | undefined => exact hends.elim
  · cases h

theorem events_handleSocket (client : SquawkbusClient) (event : SocketEvent) :
    (client.handleSocket event).events = (client.handleSocketRead event).1.events := by
  show ((client.handleSocketRead event).1.andThen
    (handleSocketWrite event (client.handleSocketRead event).2)).events = _
  cases hfault : (client.handleSocketRead event).1.fault with
  | some halt => rw [Outcome.andThen_of_fault hfault]
  | none =>
      rw [Outcome.andThen_of_ok hfault]
      simp

theorem sweep_quiet (client : SquawkbusClient) :
    client.sweep.state = client ∧ client.sweep.events = [] := by
  unfold sweep
  split <;> exact ⟨rfl, rfl⟩

/-- **No step of the client** loses, repeats or mixes up what it asks for. -/
theorem Outgoing.clientStep (h : Outgoing client line) (step : ClientStep) :
    Outgoing (client.clientStep step).state (lineStep line client step) := by
  have hread : Outgoing client { line with received := line.received ++ client.readFrom step } :=
    h.ofLine rfl rfl
  unfold lineStep
  cases step with
  | console results =>
      simp only [writtenTo, List.append_nil]
      exact keeps_readConsole (fun client message _ => keepsOutgoing_send client message)
        (fun _ _ _ h => h.congr) (fun _ _ event hevent h => h.snoc event hevent) client results _ hread
  | socket event =>
      have hserved := keeps_handleSocketRead (fun _ _ _ h => h.congr)
        (fun _ _ event hevent h => h.snoc event hevent) client event _ hread
      have hnothing : ∀ line : Line, { line with written := line.written ++ [] } = line := by simp
      simp only [SquawkbusClient.clientStep, handleSocket, writtenTo]
      cases hfault : (client.handleSocketRead event).1.fault with
      | some halt =>
          rw [Outcome.andThen_of_fault hfault]
          simp only [Option.isNone_some, Bool.false_and, Bool.false_eq_true, if_false, hnothing]
          exact hserved
      | none =>
          rw [Outcome.andThen_of_ok hfault]
          simp only [Option.isNone_none, Bool.true_and, events_handleSocketWrite, List.append_nil]
          unfold handleSocketWrite
          split
          · exact hserved.writeSocket event.writes event.pending
          · rw [hnothing]
            exact hserved
  | sweep =>
      simp only [writtenTo, List.append_nil]
      rw [SquawkbusClient.clientStep, client.sweep_quiet.1, client.sweep_quiet.2]
      exact hread

/-! ## What comes in -/

/-- **What has been read has been given to the reader**, all of it on an open socket. -/
def Incoming (client : SquawkbusClient) (line : Line) : Prop :=
  ∃ passed, line.Heard passed ∧ client.reader.Takes passed ∧
    (client.socket.isOpen = true → passed.flatten = line.received)

/-- The chunk leaves the reader with fewer than `2 ^ 31` bytes. -/
def ChunkFits (client : SquawkbusClient) (buf : Bytes) : Prop :=
  client.reader.fbuf.retained + buf.length < 2 ^ 31

instance (client : SquawkbusClient) (buf : Bytes) : Decidable (ChunkFits client buf) :=
  inferInstanceAs (Decidable (_ < _))

/-- There is no message in the frame, or the refusal of the server. -/
def Fatal (frame : Bytes) : Prop :=
  ∀ message, Message.ofFrame frame = some message → message = .authenticationResponse ⟨false⟩

/-- **What ends the process while frames are read**: a fatal frame. No handler of the poller catches an
exception that comes of it. -/
structure Ends (frames : List Bytes) (halt : Halt) : Prop where
  notCaught : ∀ e, halt = .fault (.thrown e) → e.isStdException = false
  cause : ∃ frame ∈ frames, Fatal frame

/-! ### One frame -/

theorem showMessage_quiet (client : SquawkbusClient) (message : Message) :
    (client.showMessage message).state = client ∧
      processedIn (client.showMessage message).events = [] ∧
        ∀ halt, (client.showMessage message).fault = some halt →
          halt = .exited ∧ message = .authenticationResponse ⟨false⟩ := by
  unfold showMessage
  split
  · next response =>
    split
    · exact ⟨rfl, rfl, by simp⟩
    · next hrefused =>
      have hfalse : response = ⟨false⟩ := by
        cases response
        simpa using hrefused
      exact ⟨rfl, rfl, fun halt h => ⟨(Option.some.inj h).symm, hfalse ▸ rfl⟩⟩
  · exact ⟨rfl, rfl, by simp⟩

/-- **A frame is shown** if there is a message in it, and otherwise ends the process. -/
theorem handleFrame_of_frame {frame : Bytes} (h : client.reader.frames = [frame]) :
    client.handleFrame.state = { client with reader := { client.reader with frames := [] } } ∧
      processedIn client.handleFrame.events = Message.ofFrames [frame] ∧
        ∀ halt, client.handleFrame.fault = some halt → Ends [frame] halt := by
  have hread : client.reader.read =
      .ok (FrameBuffer.empty.write frame, { client.reader with frames := [] }) := by
    unfold FrameReader.read
    rw [h]
  unfold handleFrame Message.ofFrames
  rw [hread, List.filterMap_cons, List.filterMap_nil]
  simp only
  split
  · next fault herror =>
    have hnone : Message.ofFrame frame = none := by
      rw [Message.ofFrame, herror]
    rw [hnone]
    refine ⟨rfl, rfl, fun halt hhalt => ⟨fun e he => ?_, frame, List.mem_singleton_self _, ?_⟩⟩
    · cases hhalt
      rcases deserialize_eq_error herror with rfl | rfl
      · cases he
      · cases he
        rfl
    · intro message hmessage
      rw [hnone] at hmessage
      cases hmessage
  · next message _ hmessage =>
    obtain ⟨hstate, hquiet, hexited⟩ := showMessage_quiet
      { client with reader := { client.reader with frames := [] } } message
    have hsome : Message.ofFrame frame = some message := by
      rw [Message.ofFrame, hmessage]
    rw [hsome, Outcome.andThen_of_ok rfl]
    refine ⟨hstate, ?_, fun halt hhalt => ?_⟩
    · show processedIn ([.processed message] ++ _) = _
      unfold processedIn at hquiet ⊢
      rw [List.filterMap_append, Outcome.emit_state, hquiet]
      rfl
    · obtain ⟨rfl, hrefused⟩ := hexited halt hhalt
      refine ⟨fun e he => (by cases he), frame, List.mem_singleton_self _, fun message' hmessage' => ?_⟩
      exact (Option.some.inj (hmessage'.symm.trans hsome)).trans hrefused

/-! ### The chunks of a read -/

/-- **A chunk is given to the reader**, and the message it completes is shown. -/
theorem takes_handleMessage (h : client.reader.Takes passed) {buf : Bytes}
    (hfits : ChunkFits client buf) :
    let outcome := client.handleMessage buf
    outcome.state.reader.Takes (passed ++ [buf]) ∧ outcome.state.socket = client.socket ∧
      Message.ofFrames (LengthPrefix.Reader.run networkLong passed).out ++
          processedIn outcome.events =
        Message.ofFrames (LengthPrefix.Reader.run networkLong (passed ++ [buf])).out ∧
      ∀ halt, outcome.fault = some halt →
        Ends (LengthPrefix.Reader.run networkLong (passed ++ [buf])).out halt := by
  intro outcome
  obtain ⟨hasFrame, reader, hwrite, hout, htakes⟩ := h.write hfits
  have hloop : outcome =
      Outcome.forEach (fun _ => handleFrame) reader.frames { client with reader } := by
    simp only [outcome, handleMessage, hwrite]
  rw [hout, Message.ofFrames_append, hloop]
  have hframes := FrameReader.frames_write hwrite
  simp only [h.frames, List.nil_append] at hframes
  rcases hframes with hnone | ⟨frame, hone⟩
  · have hdrained : { reader with frames := [] } = reader := by rw [← hnone]
    rw [hdrained] at htakes
    rw [hnone]
    exact ⟨htakes, rfl, rfl, by simp⟩
  · have hclient : ({ client with reader } : SquawkbusClient).reader.frames = [frame] := hone
    obtain ⟨hstate, hprocessed, hhalt⟩ := handleFrame_of_frame hclient
    rw [hone, Outcome.forEach_singleton, hstate, hprocessed]
    refine ⟨htakes, rfl, rfl, fun halt hfault => ⟨(hhalt halt hfault).notCaught, ?_⟩⟩
    obtain ⟨frame', hframe, hfatal⟩ := (hhalt halt hfault).cause
    exact ⟨frame', List.mem_append_right _ hframe, hfatal⟩

/-- **The chunks of a read** are given to the reader one by one, all of them if the process goes on. -/
theorem takes_handleMessages {bufs : List Bytes} (h : client.reader.Takes passed)
    (hfits : Outcome.Meets handleMessage ChunkFits bufs client) :
    let outcome := Outcome.forEach handleMessage bufs client
    ∃ done, done <+: bufs ∧ outcome.state.reader.Takes (passed ++ done) ∧
      outcome.state.socket = client.socket ∧
      Message.ofFrames (LengthPrefix.Reader.run networkLong passed).out ++
          processedIn outcome.events =
        Message.ofFrames (LengthPrefix.Reader.run networkLong (passed ++ done)).out ∧
      (outcome.fault = none → done = bufs) ∧
      ∀ halt, outcome.fault = some halt →
        Ends (LengthPrefix.Reader.run networkLong (passed ++ done)).out halt := by
  induction bufs generalizing client passed with
  | nil =>
      refine ⟨[], List.prefix_refl _, ?_, rfl, ?_, fun _ => rfl, by simp⟩
      · rwa [List.append_nil]
      · simp [processedIn]
  | cons buf bufs ih =>
      obtain ⟨htakes, hsocket, hprocessed, hhalt⟩ := takes_handleMessage h hfits.1
      simp only [Outcome.forEach_cons]
      cases hfault : (client.handleMessage buf).fault with
      | some halt =>
          rw [Outcome.andThen_of_fault hfault]
          refine ⟨[buf], List.prefix_append [buf] bufs, htakes, hsocket, hprocessed, ?_, hhalt⟩
          rw [hfault]
          simp
      | none =>
          obtain ⟨done, hdone, htakes', hsocket', hprocessed', hall, hhalt'⟩ :=
            ih htakes (hfits.2 hfault)
          rw [Outcome.andThen_of_ok hfault]
          rw [List.append_assoc] at htakes' hprocessed' hhalt'
          refine ⟨buf :: done, List.cons_prefix_cons.mpr ⟨rfl, hdone⟩, htakes', hsocket'.trans hsocket,
            ?_, fun hreturns => congrArg (buf :: ·) (hall hreturns), hhalt'⟩
          · unfold processedIn at hprocessed hprocessed' ⊢
            rw [List.filterMap_append, ← List.append_assoc, hprocessed]
            exact hprocessed'

/-! ### What leaves the reader alone -/

variable {line' : Line}

/-- What does not concern the reader leaves it as it is. -/
theorem Incoming.congr (h : Incoming client line) (hreader : client'.reader = client.reader)
    (hopen : client'.socket.isOpen = true → client.socket.isOpen = true)
    (hreceived : line'.received = line.received) (hprocessed : line'.processed = line.processed) :
    Incoming client' line' := by
  obtain ⟨passed, hheard, htakes, hall⟩ := h
  refine ⟨passed, ⟨hprocessed.trans hheard.processed, hreceived ▸ hheard.inOrder⟩, ?_, fun hopen' => ?_⟩
  · rwa [hreader]
  · rw [hreceived]
    exact hall (hopen hopen')

/-- A call that leaves the reader and makes nothing of frames. -/
theorem keepsIncoming_quiet {outcome : ClientOutcome} (hreader : outcome.state.reader = client.reader)
    (hopen : outcome.state.socket.isOpen = true → client.socket.isOpen = true)
    (hquiet : processedIn outcome.events = []) : outcome.Keeps note Incoming client := by
  intro line hline
  obtain ⟨hreceived, -, hprocessed⟩ := foldl_note outcome.events line
  rw [hquiet, List.append_nil] at hprocessed
  exact hline.congr hreader hopen hreceived hprocessed

theorem keepsIncoming_send (client : SquawkbusClient) (message : Message) :
    (client.send message).Keeps note Incoming client := by
  unfold send
  split
  · exact keepsIncoming_quiet rfl id rfl
  · exact keepsIncoming_quiet rfl id rfl

theorem keepsIncoming_handleCommand (client : SquawkbusClient) (buf : Bytes) :
    (client.handleCommand buf).Keeps note Incoming client := by
  unfold handleCommand
  simp only
  split
  · exact keepsIncoming_quiet rfl (fun hopen => by cases hopen) rfl
  · repeat' split
    all_goals first
      | exact keepsIncoming_send client _
      | exact keepsIncoming_quiet rfl id rfl

theorem keepsIncoming_readConsole (client : SquawkbusClient) (results : List ReadResult) :
    (client.readConsole results).Keeps note Incoming client := by
  unfold readConsole
  split
  · exact keepsIncoming_quiet rfl id rfl
  · next console _ =>
    intro line hline
    rw [catchStdException_state, catchStdException_events]
    exact Outcome.keeps_forEach (fun buf s => keepsIncoming_handleCommand s buf) console.readQueue _
      line (hline.congr rfl id rfl rfl)

theorem Incoming.writeSocket (h : Incoming client line) (results : List WriteResult)
    (pending : Option WriteResult) : Incoming (client.writeSocket results pending).state line := by
  have hput : Incoming { client with socket := (client.socket.write results pending).1 } line :=
    h.congr rfl SocketHandler.isOpen_of_write rfl rfl
  unfold SquawkbusClient.writeSocket
  simp only [catchStdException_state]
  split <;> exact hput

theorem Incoming.handleSocketWrite (h : Incoming client line) (event : SocketEvent)
    (canContinue : Bool) : Incoming (client.handleSocketWrite event canContinue).state line := by
  unfold SquawkbusClient.handleSocketWrite
  split
  · exact h.writeSocket event.writes event.pending
  · exact h

/-! ### The read of an event -/

/-- What is not caught ends the process also behind the handler. -/
theorem returns_of_catchStdException {outcome : ClientOutcome} {frames : List Bytes}
    (hends : ∀ halt, outcome.fault = some halt → Ends frames halt)
    (h : (catchStdException outcome).fault = none) : outcome.fault = none := by
  unfold catchStdException at h
  split at h
  · next e hfault =>
    simp only [(hends _ hfault).notCaught e rfl] at h
    cases h
  · exact h

theorem cause_of_catchStdException {outcome : ClientOutcome} {frames : List Bytes}
    (hends : ∀ halt, outcome.fault = some halt → Ends frames halt) {halt : Halt}
    (h : (catchStdException outcome).fault = some halt) : ∃ frame ∈ frames, Fatal frame := by
  unfold catchStdException at h
  split at h
  · next e hfault => exact (hends _ hfault).cause
  · exact (hends _ h).cause

/-- What a step needs of the reads: that the chunks fit. -/
def Fits (client : SquawkbusClient) (step : ClientStep) : Prop :=
  ∀ event, step = .socket event → event.readable = true →
    Outcome.Meets handleMessage ChunkFits (client.socket.read event.reads).2
      { client with socket := (client.socket.read event.reads).1 }

/-- What has been read is given to the reader chunk by chunk, unless a signal comes first. -/
theorem handleSocketRead_of_readable {event : SocketEvent} (hreadable : event.readable = true) :
    (client.handleSocketRead event).1 =
      if client.socket.killedByRead event.reads then
        .fail { client with socket := (client.socket.read event.reads).1 } (.fault .killed)
      else
        catchStdException (Outcome.forEach handleMessage (client.socket.read event.reads).2
          { client with socket := (client.socket.read event.reads).1 }) := by
  simp only [handleSocketRead, hreadable, if_true, readSocket]
  split
  · rfl
  · rfl

/-- What ends the process in a read: a fatal frame, or a signal. -/
def ReadEnds (event : SocketEvent) (frames : List Bytes) (halt : Halt) : Prop :=
  (∃ frame ∈ frames, Fatal frame) ∨ halt = .fault .killed ∧ ReadResult.sigpipe ∈ event.reads

/-- **The chunks of a read** follow those given to the reader before. -/
theorem Incoming.handleMessages (h : Incoming client line) {event : SocketEvent}
    (hfits : Outcome.Meets handleMessage ChunkFits (client.socket.read event.reads).2
      { client with socket := (client.socket.read event.reads).1 }) :
    let outcome := catchStdException (Outcome.forEach handleMessage
      (client.socket.read event.reads).2
      { client with socket := (client.socket.read event.reads).1 })
    let line' := outcome.events.foldl note
      { line with received := line.received ++ (client.socket.read event.reads).2.flatten }
    (∃ passed, line'.Heard passed ∧ ∀ halt, outcome.fault = some halt →
        ∃ frame ∈ (LengthPrefix.Reader.run networkLong passed).out, Fatal frame) ∧
      (outcome.fault = none → Incoming outcome.state line') := by
  intro outcome line'
  obtain ⟨passed, hheard, htakes, hall⟩ := h
  have hreader : ({ client with socket := (client.socket.read event.reads).1 } :
      SquawkbusClient).reader.Takes passed := htakes
  obtain ⟨done, hdone, htakes', hsocket, hprocessed, hreturns, hhalt⟩ :=
    takes_handleMessages hreader hfits
  obtain ⟨hreceived, -, hnoted⟩ := foldl_note outcome.events
    { line with received := line.received ++ (client.socket.read event.reads).2.flatten }
  -- Only an open socket has something to be read.
  have hwhole : done ≠ [] → passed.flatten = line.received := by
    intro hne
    refine hall (Bool.not_eq_false _ ▸ fun hclosed => hne ?_)
    rw [SocketHandler.read_of_closed hclosed] at hdone
    exact List.prefix_nil.mp hdone
  have hheard' : line'.Heard (passed ++ done) := by
    refine ⟨?_, ?_⟩
    · rw [← hprocessed, ← hheard.processed, hnoted, catchStdException_events]
    · rw [hreceived, List.flatten_append]
      by_cases hne : done = []
      · rw [hne, List.flatten_nil, List.append_nil]
        exact hheard.inOrder.trans (List.prefix_append _ _)
      · rw [hwhole hne]
        exact (List.prefix_append_right_inj _).mpr hdone.flatten
  refine ⟨⟨_, hheard', fun halt hfault => cause_of_catchStdException hhalt hfault⟩,
    fun hfault => ⟨_, hheard', ?_, fun hopen => ?_⟩⟩
  · rw [catchStdException_state]
    exact htakes'
  · rw [catchStdException_state, hsocket] at hopen
    rw [hreceived, List.flatten_append, hall (SocketHandler.isOpen_of_read hopen),
      hreturns (returns_of_catchStdException hhalt hfault)]

/-- **The read of an event**, to its end or to a signal. -/
theorem Incoming.handleSocketRead (h : Incoming client line) {event : SocketEvent}
    (hfits : Fits client (.socket event)) :
    let outcome := (client.handleSocketRead event).1
    let line' := outcome.events.foldl note
      { line with received := line.received ++ client.readFrom (.socket event) }
    (∃ passed, line'.Heard passed ∧ ∀ halt, outcome.fault = some halt →
        ReadEnds event (LengthPrefix.Reader.run networkLong passed).out halt) ∧
      (outcome.fault = none → Incoming outcome.state line') := by
  intro outcome line'
  cases hreadable : event.readable with
  | false =>
      have houtcome : outcome = .done client := by
        simp only [outcome, SquawkbusClient.handleSocketRead, hreadable]
        rfl
      have hline : line' = line := by
        simp [line', houtcome, readFrom, hreadable]
      rw [hline, houtcome]
      exact ⟨⟨_, h.choose_spec.1, fun halt hhalt => by cases hhalt⟩, fun _ => h⟩
  | true =>
      have houtcome : outcome = _ := handleSocketRead_of_readable hreadable
      have hread : client.readFrom (.socket event) =
          (client.socket.read event.reads).2.flatten := by
        simp [readFrom, hreadable]
      simp only [line', hread]
      cases hkilled : client.socket.killedByRead event.reads with
      | true =>
          rw [houtcome, hkilled, if_pos rfl]
          obtain ⟨passed, hheard, -, -⟩ := h
          have hsignal : ReadResult.sigpipe ∈ event.reads := by
            by_contra hnone
            rw [SocketHandler.killedByRead_eq_false _ hnone] at hkilled
            cases hkilled
          refine ⟨⟨passed, ⟨hheard.processed, hheard.inOrder.trans (List.prefix_append _ _)⟩,
            fun halt hhalt => .inr ⟨(Option.some.inj hhalt).symm, hsignal⟩⟩, fun hnone => by cases hnone⟩
      | false =>
          rw [houtcome, hkilled, if_neg Bool.false_ne_true]
          obtain ⟨⟨passed, hheard, hcause⟩, hreturns⟩ := h.handleMessages (hfits event rfl hreadable)
          exact ⟨⟨passed, hheard, fun halt hhalt => .inl (hcause halt hhalt)⟩, hreturns⟩

/-! ### The steps of the loop -/

/-- **A step of the client** that returns, and what it leaves of the record if it does not. -/
theorem Incoming.clientStep (h : Incoming client line) {step : ClientStep}
    (hfits : Fits client step) :
    (∃ passed, (lineStep line client step).Heard passed) ∧
      ((client.clientStep step).fault = none →
        Incoming (client.clientStep step).state (lineStep line client step)) := by
  have hwhole : ∀ {client' : SquawkbusClient} {line' : Line}, Incoming client' line' →
      (∃ passed, line'.Heard passed) ∧
        ((client.clientStep step).fault = none → Incoming client' line') :=
    fun hafter => ⟨⟨_, hafter.choose_spec.1⟩, fun _ => hafter⟩
  cases step with
  | console results =>
      refine hwhole ?_
      have hserved := keepsIncoming_readConsole client results line h
      simp only [lineStep, readFrom, writtenTo, List.append_nil]
      exact hserved
  | socket event =>
      obtain ⟨⟨passed, hheard, -⟩, hreturns⟩ := h.handleSocketRead hfits
      have houtcome : client.clientStep (.socket event) =
          (client.handleSocketRead event).1.andThen
            (SquawkbusClient.handleSocketWrite event (client.handleSocketRead event).2) := rfl
      unfold lineStep
      rw [houtcome]
      cases hfault : (client.handleSocketRead event).1.fault with
      | some halt =>
          rw [Outcome.andThen_of_fault hfault]
          refine ⟨⟨passed, hheard.processed, hheard.inOrder⟩, fun hnone => ?_⟩
          rw [hfault] at hnone
          cases hnone
      | none =>
          rw [Outcome.andThen_of_ok hfault]
          simp only [events_handleSocketWrite, List.append_nil]
          refine ⟨⟨passed, hheard.processed, hheard.inOrder⟩, fun _ => ?_⟩
          exact ((hreturns hfault).handleSocketWrite event _).congr rfl id rfl rfl
  | sweep =>
      refine hwhole ?_
      simp only [lineStep, readFrom, writtenTo, List.append_nil, SquawkbusClient.clientStep,
        client.sweep_quiet.1, client.sweep_quiet.2]
      exact h

/-- The bytes of a record after a step. -/
theorem lineStep_bytes (line : Line) (client : SquawkbusClient) (step : ClientStep) :
    (lineStep line client step).received = line.received ++ client.readFrom step ∧
      (lineStep line client step).written = line.written ++ client.writtenTo step := by
  obtain ⟨hreceived, hwritten, -⟩ := foldl_note (client.clientStep step).events
    { line with received := line.received ++ client.readFrom step }
  exact ⟨hreceived, congrArg (· ++ client.writtenTo step) hwritten⟩

theorem outgoing_new (request : AuthenticationRequest) : Outgoing (.new request) .new :=
  ⟨rfl, by simp [Line.Sendable, Line.new]⟩

theorem incoming_new (request : AuthenticationRequest) : Incoming (.new request) .new :=
  ⟨[], ⟨rfl, List.prefix_refl _⟩, FrameReader.takes_empty, fun _ => rfl⟩

end SquawkbusClient

end SquawkBus.Client
