import SquawkBus.Server.Line
import SquawkBus.Server.NothingSkipped

/-!
# What a client is heard to say

The other direction of a `Line`: the bytes read from the socket, cut as the reads cut them, go through
the reader of the connection, and each frame that comes out is a message processed. So the messages
processed are the first of those sent, in order, each once (`processed_run`): the server makes nothing
up, and skips nothing, in every run in which an exception comes only of the last chunk of a read.
-/

namespace SquawkBus.Serialization.FrameReader

/-! ## Chunks and the reader -/

/-- The reader has been given the chunks, and all the frames there are have been read. -/
structure Takes (reader : FrameReader) (passed : List Bytes) : Prop where
  frames : reader.frames = []
  lenFits : reader.LenFits
  pending : reader.pending = (LengthPrefix.Reader.run networkLong passed).pending

theorem takes_empty : empty.Takes [] :=
  ⟨rfl, fun _ h => by simp [empty] at h, by simp [pending, empty, LengthPrefix.Reader.init]⟩

/-- **A chunk more**: the frames there are afterwards are those that the abstract reader makes of it. -/
theorem Takes.write {reader : FrameReader} {passed : List Bytes} (h : reader.Takes passed)
    {buf : Bytes} (hfits : reader.fbuf.retained + buf.length < 2 ^ 31) :
    ∃ hasFrame reader', reader.write buf = .ok (hasFrame, reader') ∧
      (LengthPrefix.Reader.run networkLong (passed ++ [buf])).out =
        (LengthPrefix.Reader.run networkLong passed).out ++ reader'.frames ∧
      { reader' with frames := [] }.Takes (passed ++ [buf]) := by
  obtain ⟨reader', hwrite, hlen, hspec⟩ := write_spec hfits h.lenFits
  have hsame : reader.toReader (LengthPrefix.Reader.run networkLong passed).out =
      LengthPrefix.Reader.run networkLong passed := by
    rw [toReader, h.frames, List.append_nil, h.pending]
  have hnext : reader'.toReader (LengthPrefix.Reader.run networkLong passed).out =
      LengthPrefix.Reader.run networkLong (passed ++ [buf]) := by
    rw [hspec, hsame, LengthPrefix.Reader.run_snoc]
  refine ⟨_, reader', hwrite, ?_, rfl, hlen, ?_⟩
  · rw [← hnext]
    rfl
  · rw [← hnext]
    rfl

end SquawkBus.Serialization.FrameReader

namespace SquawkBus.Server

open SquawkBus.Io SquawkBus.Messages SquawkBus.Serialization

/-! ## The messages processed -/

variable {ρ : Type} [RegexEngine ρ]

/-- The messages that `process_message` is given on a connection. -/
def processedAt (fd : Fd) (events : List ServerEvent) : List Message :=
  events.filterMap fun
    | .processed fd' message => if fd' = fd then some message else none
    | _ => none

@[simp] theorem processedAt_append (fd : Fd) (events events' : List ServerEvent) :
    processedAt fd (events ++ events') = processedAt fd events ++ processedAt fd events' :=
  List.filterMap_append

theorem processedAt_eq_nil {fd : Fd} {events : List ServerEvent}
    (h : ∀ message, .processed fd message ∉ events) : processedAt fd events = [] := by
  refine List.filterMap_eq_nil_iff.mpr fun event hmem => ?_
  cases event with
  | processed fd' message =>
      refine if_neg fun hfd => ?_
      subst hfd
      exact h message hmem
  | _ => rfl

/-- As long as no other connection is opened, more messages are processed, and nothing is read or
written. -/
theorem foldl_note {fd : Fd} {events : List ServerEvent} (hopened : .opened fd ∉ events)
    (line : Line) :
    (events.foldl (note fd) line).received = line.received ∧
      (events.foldl (note fd) line).written = line.written ∧
        (events.foldl (note fd) line).processed = line.processed ++ processedAt fd events := by
  induction events generalizing line with
  | nil => exact ⟨rfl, rfl, (List.append_nil _).symm⟩
  | cons event events ih =>
      obtain ⟨hreceived, hwritten, hprocessed⟩ :=
        ih (fun hmem => hopened (List.mem_cons_of_mem event hmem)) (note fd line event)
      rw [List.foldl_cons, hreceived, hwritten, hprocessed, ← List.singleton_append, processedAt_append,
        ← List.append_assoc]
      cases event with
      | opened fd' =>
          have hfd : fd' ≠ fd := fun hfd => hopened (hfd ▸ List.mem_cons_self)
          rw [note, if_neg hfd]
          simp [processedAt]
      | processed fd' message =>
          unfold note processedAt
          by_cases hfd : fd' = fd <;> simp [hfd]
      | sent fd' message =>
          unfold note processedAt
          by_cases hfd : fd' = fd <;> simp [hfd]
      | authenticated fd' user =>
          unfold note processedAt
          by_cases hfd : fd' = fd <;> simp [hfd]
      | closed _ | rejected _ | handled _ _ => simp [note, processedAt]

namespace ServerState

variable (md5 : Bytes → Bytes) {server server' : ServerState ρ} {fd : Fd} {interactor : Interactor}
  {passed : List Bytes}

/-! ## One chunk -/

theorem not_processed_forwards {step : HubStep ρ} {event : ServerEvent}
    (h : Forwards server step event) (message : Message) : event ≠ .processed fd message := by
  cases h
  simp

/-- A message processed is processed once. -/
theorem processedAt_processMessage (server : ServerState ρ) (fd : Fd) (interactor : Interactor)
    (message : Message) :
    processedAt fd (server.processMessage md5 fd interactor message).events = [message] := by
  unfold processMessage
  rw [Outcome.andThen_of_ok rfl, Outcome.emit_events, processedAt_append]
  have hfirst : processedAt fd [.processed fd message] = [message] := by simp [processedAt]
  have hrest : ∀ outcome : ServerOutcome ρ, (∀ message', .processed fd message' ∉ outcome.events) →
      processedAt fd [.processed fd message] ++ processedAt fd outcome.events = [message] := by
    intro outcome h
    rw [hfirst, processedAt_eq_nil h, List.append_nil]
  refine hrest _ fun message' hmem => ?_
  cases huser : interactor.user with
  | none =>
      simp only [huser, Outcome.emit_state] at hmem
      cases message with
      | authenticationRequest request =>
          cases hanswer : server.authenticationManager.authenticate md5 request with
          | error e =>
              rw [authenticate_error md5 hanswer] at hmem
              cases hmem
          | ok answer =>
              cases answer with
              | some user =>
                  rw [authenticate_some md5 hanswer] at hmem
                  simp at hmem
              | none =>
                  rw [authenticate_none md5 hanswer] at hmem
                  simp at hmem
      | _ =>
          rw [authenticate_other md5 (by simp)] at hmem
          simp at hmem
  | some user =>
      simp only [huser, Outcome.emit_state] at hmem
      rw [Outcome.andThen_of_ok rfl, Outcome.emit_events, Outcome.emit_state] at hmem
      rcases List.mem_append.mp hmem with hhandled | hhub
      · simp at hhandled
      · exact not_processed_forwards ((ensures_onHub _ _).events _ hhub) message' rfl

theorem processedAt_processFrame (server : ServerState ρ) (fd : Fd) (interactor : Interactor)
    (frame : Bytes) :
    processedAt fd (server.processFrame md5 fd interactor frame).events =
      Message.ofFrames [frame] := by
  unfold processFrame Message.ofFrames
  rw [List.filterMap_cons, List.filterMap_nil, Message.ofFrame]
  split
  · next hmessage =>
    rw [hmessage]
    rfl
  · next message _ hmessage =>
    rw [hmessage]
    exact processedAt_processMessage md5 server fd interactor message

/-! ### The reader of an interactor -/

/-- There is an interactor at the descriptor whose reader has been given the chunks. -/
def Given (fd : Fd) (server : ServerState ρ) (passed : List Bytes) : Prop :=
  ∃ interactor, server.interactors[fd]? = some interactor ∧ interactor.reader.Takes passed

/-- The chunk leaves the reader of the connection with fewer than `2 ^ 31` bytes. -/
def ChunkFits (fd : Fd) (server : ServerState ρ) (buf : Bytes) : Prop :=
  ∀ interactor, server.interactors[fd]? = some interactor →
    interactor.reader.fbuf.retained + buf.length < 2 ^ 31

/-- **A chunk is given to the reader**, and the message it completes is processed. -/
theorem Given.receive (h : Given fd server passed) {buf : Bytes} (hfits : ChunkFits fd server buf) :
    Given fd (server.receive md5 fd buf).state (passed ++ [buf]) ∧
      Message.ofFrames (LengthPrefix.Reader.run networkLong passed).out ++
          processedAt fd (server.receive md5 fd buf).events =
        Message.ofFrames (LengthPrefix.Reader.run networkLong (passed ++ [buf])).out := by
  obtain ⟨interactor, hget, htakes⟩ := h
  obtain ⟨hasFrame, reader, hwrite, hout, htakes'⟩ := htakes.write (hfits interactor hget)
  rcases receive_cases md5 hget htakes.frames buf with ⟨fault, herror, -⟩ |
    ⟨_, reader', hwrite', hcase⟩
  · cases herror.symm.trans hwrite
  · obtain ⟨-, rfl⟩ := Prod.mk.inj (Except.ok.inj (hwrite'.symm.trans hwrite))
    rw [hout, Message.ofFrames_append]
    rcases hcase with ⟨hnone, heq⟩ | ⟨frame, hframe, heq⟩
    · rw [heq, hnone]
      exact ⟨⟨_, get_withInteractor _ _ _, htakes'⟩, rfl⟩
    · obtain ⟨user, hstate, -⟩ := interactor_processFrame md5
        (server.get_withInteractor fd (interactor.drained reader')) frame
      rw [heq, hframe, processedAt_processFrame]
      exact ⟨⟨_, hstate, htakes'⟩, rfl⟩

/-- **The chunks of a read** are given to the reader one by one, as far as the loop comes. -/
theorem Given.receives (h : Given fd server passed) {bufs : List Bytes}
    (hfits : Outcome.Meets (ServerState.receive md5 fd) (ChunkFits fd) bufs server) :
    let done := (Outcome.rounds (ServerState.receive md5 fd) bufs server).map (·.2)
    Given fd (Outcome.forEach (ServerState.receive md5 fd) bufs server).state (passed ++ done) ∧
      Message.ofFrames (LengthPrefix.Reader.run networkLong passed).out ++
          processedAt fd (Outcome.forEach (ServerState.receive md5 fd) bufs server).events =
        Message.ofFrames (LengthPrefix.Reader.run networkLong (passed ++ done)).out := by
  induction bufs generalizing server passed with
  | nil => simpa [Outcome.rounds, processedAt] using h
  | cons buf bufs ih =>
      obtain ⟨hgiven, hprocessed⟩ := h.receive md5 hfits.1
      simp only [Outcome.forEach_cons, Outcome.rounds]
      cases hfault : (server.receive md5 fd buf).fault with
      | some fault =>
          rw [Outcome.andThen_of_fault hfault]
          exact ⟨hgiven, hprocessed⟩
      | none =>
          obtain ⟨hlast, hrest⟩ := ih hgiven (hfits.2 hfault)
          rw [Outcome.andThen_of_ok hfault, List.map_cons, ← List.singleton_append,
            ← List.append_assoc, processedAt_append, ← List.append_assoc, hprocessed]
          exact ⟨hlast, hrest⟩

/-! ### A message in several chunks -/

/-- A chunk behind which the message still goes on is only taken in. -/
theorem receive_of_part (hget : server.interactors[fd]? = some interactor)
    (htakes : interactor.reader.Takes passed) {message : Message}
    (hlength : message.encode.length < 2 ^ 31) {buf : Bytes}
    (hpart : (passed ++ [buf]).flatten <+: message.wire)
    (hlt : (passed ++ [buf]).flatten.length < message.wire.length) (hfits : ChunkFits fd server buf) :
    ∃ reader : FrameReader, reader.Takes (passed ++ [buf]) ∧
      server.receive md5 fd buf = .done (server.withInteractor fd { interactor with reader }) := by
  have hrun := LengthPrefix.Reader.run_of_lt (hlength.trans (by decide)) hpart hlt
  obtain ⟨hasFrame, reader, hwrite, hout, htakes'⟩ := htakes.write (hfits interactor hget)
  have hframes : reader.frames = [] := by
    rw [hrun] at hout
    exact (List.append_eq_nil_iff.mp hout.symm).2
  rcases receive_cases md5 hget htakes.frames buf with ⟨fault, herror, -⟩ | ⟨_, reader', hwrite', hcase⟩
  · cases herror.symm.trans hwrite
  · obtain ⟨-, rfl⟩ := Prod.mk.inj (Except.ok.inj (hwrite'.symm.trans hwrite))
    rcases hcase with ⟨-, heq⟩ | ⟨frame, hframe, -⟩
    · exact ⟨{ reader' with frames := [] }, htakes', heq⟩
    · rw [hframes] at hframe
      cases hframe

/-- With its last chunk a message is processed, and nothing of it is left in the reader. -/
theorem receive_of_last (hget : server.interactors[fd]? = some interactor)
    (htakes : interactor.reader.Takes passed) {message : Message} (hmessage : message.Fits)
    (hlength : message.encode.length < 2 ^ 31) {buf : Bytes}
    (hwire : passed.flatten ++ buf = message.wire) (hbuf : buf ≠ []) (hfits : ChunkFits fd server buf) :
    ∃ reader : FrameReader, reader.Takes [] ∧ server.receive md5 fd buf =
      (server.withInteractor fd { interactor with reader }).processMessage md5 fd
        { interactor with reader } message := by
  have hbound : message.encode.length < networkLong.bound := hlength.trans (by decide)
  have hrun := LengthPrefix.Reader.run_of_frame hbound hwire hbuf
  have hbefore : (LengthPrefix.Reader.run networkLong passed).out = [] := by
    have hpos := List.length_pos_iff.mpr hbuf
    have hall := congrArg List.length hwire
    rw [List.length_append] at hall
    rw [LengthPrefix.Reader.run_of_lt hbound ⟨buf, hwire⟩ (show _ < message.wire.length by omega)]
  obtain ⟨hasFrame, reader, hwrite, hout, htakes'⟩ := htakes.write (hfits interactor hget)
  rw [hrun, hbefore] at hout
  have hframes : reader.frames = [message.encode] := hout.symm
  rcases receive_cases md5 hget htakes.frames buf with ⟨fault, herror, -⟩ | ⟨_, reader', hwrite', hcase⟩
  · cases herror.symm.trans hwrite
  · obtain ⟨-, rfl⟩ := Prod.mk.inj (Except.ok.inj (hwrite'.symm.trans hwrite))
    rcases hcase with ⟨hnone, -⟩ | ⟨frame, hframe, heq⟩
    · rw [hnone] at hframes
      cases hframes
    · obtain rfl := List.singleton_inj.mp (hframe.symm.trans hframes)
      refine ⟨{ reader' with frames := [] }, ⟨rfl, htakes'.lenFits, ?_⟩, ?_⟩
      · rw [htakes'.pending, hrun]
        rfl
      · obtain ⟨rest, hread, -⟩ := Message.reads_deserialize hmessage
          (FrameBuffer.empty.write message.encode) [] (by simp)
        rw [heq, processFrame, hread]
        rfl

/-- **A message that comes in whole**, however it is cut, is processed when its last chunk arrives, and
the reader is as ready for the next as it was for this one. -/
theorem receives_of_wire (hget : server.interactors[fd]? = some interactor)
    (htakes : interactor.reader.Takes passed) {message : Message} (hmessage : message.Fits)
    (hlength : message.encode.length < 2 ^ 31) {bufs : List Bytes} (hbufs : bufs ≠ [])
    (hwire : passed.flatten ++ bufs.flatten = message.wire) (hne : ∀ buf ∈ bufs, buf ≠ [])
    (hfits : Outcome.Meets (ServerState.receive md5 fd) (ChunkFits fd) bufs server) :
    ∃ reader : FrameReader, reader.Takes [] ∧
      Outcome.forEach (ServerState.receive md5 fd) bufs server =
        (server.withInteractor fd { interactor with reader }).processMessage md5 fd
          { interactor with reader } message := by
  induction bufs generalizing server interactor passed with
  | nil => exact absurd rfl hbufs
  | cons buf bufs ih =>
      obtain ⟨hbuf, hrest⟩ := List.forall_mem_cons.mp hne
      rw [List.flatten_cons, ← List.append_assoc] at hwire
      cases bufs with
      | nil =>
          rw [List.flatten_nil, List.append_nil] at hwire
          rw [Outcome.forEach_singleton]
          exact receive_of_last md5 hget htakes hmessage hlength hwire hbuf hfits.1
      | cons buf' bufs =>
          have hflatten : (passed ++ [buf]).flatten = passed.flatten ++ buf := by simp
          have hlt : (passed ++ [buf]).flatten.length < message.wire.length := by
            have hpos := List.length_pos_iff.mpr (hrest buf' List.mem_cons_self)
            have hall := congrArg List.length hwire
            simp only [List.length_append, List.flatten_cons] at hall
            rw [hflatten, List.length_append]
            omega
          obtain ⟨reader, htakes', heq⟩ := receive_of_part md5 hget htakes hlength
            ⟨(buf' :: bufs).flatten, by rw [hflatten, hwire]⟩ hlt hfits.1
          have hnext := hfits.2 (by rw [heq]; rfl)
          rw [heq] at hnext
          obtain ⟨next, hnexttakes, hreceives⟩ := ih (get_withInteractor _ _ _) htakes'
            (List.cons_ne_nil _ _) (by rw [hflatten, hwire]) hrest hnext
          refine ⟨next, hnexttakes, ?_⟩
          rw [Outcome.forEach_cons, heq, Outcome.done_andThen]
          refine hreceives.trans ?_
          rw [withInteractor_twice]

/-! ## The invariant -/

/-- **What has been read has been given to the reader**, all of it on an open connection. -/
def Incoming (fd : Fd) (server : ServerState ρ) (line : Line) : Prop :=
  ∃ passed, line.Heard passed ∧
    (∀ interactor, server.interactors[fd]? = some interactor → interactor.reader.Takes passed) ∧
    (server.isOpenAt fd = some true → passed.flatten = line.received)

variable {line line' : Line}

/-- What does not concern the connection leaves it as it is. -/
theorem Incoming.congr (h : Incoming fd server line)
    (hget : ∀ interactor, server'.interactors[fd]? = some interactor →
      server.interactors[fd]? = some interactor)
    (hopen : server'.isOpenAt fd = some true → server.isOpenAt fd = some true)
    (hreceived : line'.received = line.received) (hprocessed : line'.processed = line.processed) :
    Incoming fd server' line' := by
  obtain ⟨passed, hheard, htakes, hall⟩ := h
  refine ⟨passed, ⟨hprocessed.trans hheard.processed, hreceived ▸ hheard.inOrder⟩,
    fun interactor hget' => htakes interactor (hget interactor hget'), fun hopen' => ?_⟩
  rw [hreceived]
  exact hall (hopen hopen')

/-! ### Events that do not count -/

/-- The events are not about what the client has sent, or about a new connection. -/
def Unheard (fd : Fd) (events : List ServerEvent) : Prop :=
  .opened fd ∉ events ∧ ∀ message, .processed fd message ∉ events

theorem Incoming.quiet (h : Incoming fd server line)
    (hget : ∀ interactor, server'.interactors[fd]? = some interactor →
      server.interactors[fd]? = some interactor)
    (hopen : server'.isOpenAt fd = some true → server.isOpenAt fd = some true)
    {events : List ServerEvent} (hunheard : Unheard fd events) :
    Incoming fd server' (events.foldl (note fd) line) := by
  obtain ⟨hreceived, -, hprocessed⟩ := foldl_note hunheard.1 line
  rw [processedAt_eq_nil hunheard.2, List.append_nil] at hprocessed
  exact h.congr hget hopen hreceived hprocessed

theorem unheard_forwards {step : HubStep ρ} {events : List ServerEvent}
    (h : ∀ event ∈ events, Forwards server step event) : Unheard fd events := by
  refine ⟨fun hmem => ?_, fun message hmem => not_processed_forwards (h _ hmem) message rfl⟩
  cases h _ hmem

/-- Serving another connection. -/
theorem unheard_serving {clients : OrdMap Bytes Ptr} {fd' : Fd} (hfd : fd' ≠ fd)
    {events : List ServerEvent} (h : ∀ event ∈ events, Serving clients fd' event) :
    Unheard fd events := by
  refine ⟨fun hmem => ?_, fun message hmem => ?_⟩
  · cases h _ hmem
  · cases h _ hmem
    exact hfd rfl

theorem Incoming.handleInterrupt (h : Incoming fd server line) (configuration : Configuration ρ) :
    Incoming fd (server.handleInterrupt configuration).state
      ((server.handleInterrupt configuration).events.foldl (note fd) line) := by
  rw [handleInterrupt_state, handleInterrupt_events]
  unfold onInterrupt
  split
  · exact h
  · next manager _ =>
    have hqueued := ensures_onHub { server with authenticationManager := manager }
      (.reload configuration.authorizations)
    refine h.quiet (fun interactor hget => ?_) (fun hopen => ?_) (unheard_forwards hqueued.events)
    · rwa [hqueued.state.interactors] at hget
    · rwa [hqueued.state.isOpenAt] at hopen

/-! ### Opening and closing -/

/-- **A connection begins** with a reader that has been given nothing. -/
theorem incoming_addHandler {client : Client} (hnew : server.interactors[client.fd]? = none) :
    Incoming client.fd (server.addHandler client).state .new := by
  refine ⟨[], ⟨rfl, List.prefix_refl _⟩, fun interactor hget => ?_, fun _ => rfl⟩
  have hnone : (server.withHandler client.fd (.socket .new)).interactors[client.fd]? = none := hnew
  have hmade := get_onOpen_of_new hnone client.fd
  rw [if_pos rfl] at hmade
  obtain rfl := Option.some.inj (hmade.symm.trans hget)
  exact FrameReader.takes_empty

theorem Incoming.addHandler (h : Incoming fd server line) {client : Client}
    (hnew : client.fd = fd → server.interactors[fd]? = none) :
    Incoming fd (server.addHandler client).state
      ((server.addHandler client).events.foldl (note fd) line) := by
  have hevents : (server.addHandler client).events = [.opened client.fd] := rfl
  rw [hevents, List.foldl_cons, List.foldl_nil]
  by_cases hfd : client.fd = fd
  · subst hfd
    rw [note, if_pos rfl]
    exact incoming_addHandler (hnew rfl)
  · rw [note, if_neg hfd]
    refine h.congr (fun interactor hget => ?_) (fun hopen => ?_) rfl rfl
    · rcases get_of_onOpen hget with ⟨heq, -, -⟩ | hget'
      · exact absurd heq hfd
      · exact hget'
    · change (server.withHandler client.fd (.socket .new)).isOpenAt fd = some true at hopen
      rwa [isOpenAt_withHandler, if_neg hfd] at hopen

theorem Incoming.withHandler (h : Incoming fd server line) {fd' : Fd} {handler handler' : Handler}
    (hget : server.handlers[fd']? = some handler)
    (hopen : handler'.isOpen = true → handler.isOpen = true) :
    Incoming fd (server.withHandler fd' handler') line :=
  h.congr (fun _ hget' => hget') (isOpenAt_of_withHandler hget hopen) rfl rfl

theorem Incoming.handleWrite (h : Incoming fd server line) (fd' : Fd) (results : List WriteResult)
    (pending : Option WriteResult) : Incoming fd (server.handleWrite fd' results pending).state line :=
  handleWrite_keeps (P := fun s : ServerState ρ => Incoming fd s line) h fun _ hget =>
    h.withHandler hget SocketHandler.isOpen_of_write

theorem unheard_onClose (server : ServerState ρ) (fd fd' : Fd) :
    Unheard fd (server.onClose fd').events := by
  unfold onClose
  split
  · simp [Unheard]
  · next interactor _ =>
    have hforwards : Unheard fd _ := unheard_forwards
      (ensures_onHub server (.disconnected interactor.address)).events
    cases hfault : (server.onHub (.disconnected interactor.address)).fault with
    | some fault =>
        rw [Outcome.andThen_of_fault hfault]
        exact hforwards
    | none =>
        rw [Outcome.andThen_of_ok hfault, Outcome.emit_events]
        simp only [Unheard, List.mem_append, not_or]
        exact ⟨⟨hforwards.1, by simp⟩, fun message => ⟨hforwards.2 message, by simp⟩⟩

theorem Incoming.removeClosedHandler (h : Incoming fd server line) (fd' : Fd) :
    Incoming fd (server.removeClosedHandler fd').state
      ((server.removeClosedHandler fd').events.foldl (note fd) line) := by
  have herased : ({ server with handlers := server.handlers.erase fd' } :
      ServerState ρ).isOpenAt fd = some true → server.isOpenAt fd = some true := by
    unfold isOpenAt
    rw [OrdMap.get_erase]
    split
    · intro hopen
      cases hopen
    · exact id
  unfold ServerState.removeClosedHandler
  split
  · exact h
  · simp only
    split
    · exact h.congr (fun _ hget => hget) herased rfl rfl
    · have hleft : Incoming fd { server with handlers := server.handlers.erase fd' } line :=
        h.congr (fun _ hget => hget) herased rfl rfl
      refine hleft.quiet (fun _ hget => get_of_onClose hget) (fun hopen => ?_)
        (unheard_onClose _ fd fd')
      rwa [isOpenAt_onClose] at hopen

/-! ## Serving the sockets -/

/-- Reading from another connection. -/
theorem Incoming.onRead_of_ne (h : Incoming fd server line) {fd' : Fd} (hfd : fd' ≠ fd)
    (bufs : List Bytes) :
    Incoming fd (server.onRead md5 fd' bufs).state
      ((server.onRead md5 fd' bufs).events.foldl (note fd) line) := by
  have hserved := server.serves_onRead md5 fd' bufs
  refine h.quiet (fun interactor hget => ?_) (fun hopen => ?_) (unheard_serving hfd hserved.events)
  · rwa [hserved.state.interactors fd (Ne.symm hfd)] at hget
  · rwa [hserved.state.isOpenAt fd (Ne.symm hfd)] at hopen

/-! ### A read of the connection -/

/-- What the loop of `on_read` needs of the chunks: that they fit, and that no exception comes of one
that others follow. -/
structure ReadsWell (fd : Fd) (server : ServerState ρ) (bufs : List Bytes) : Prop where
  fits : Outcome.Meets (receive md5 fd) (ChunkFits fd) bufs server
  quiet : Outcome.Meets (receive md5 fd) (RaisesNothing md5 fd) bufs.dropLast server

/-- **Reading from the connection**: the chunks follow those given to the reader before. When the
connection is left open, they have all been given. -/
theorem heard_onRead (hheard : line.Heard passed) (hall : passed.flatten = line.received)
    (hattended : Attended fd server)
    (htakes : ∀ interactor, server.interactors[fd]? = some interactor →
      interactor.reader.Takes passed)
    {bufs : List Bytes} (hreads : ReadsWell md5 fd server bufs) :
    let outcome := server.onRead md5 fd bufs
    let line' := outcome.events.foldl (note fd)
      { line with received := line.received ++ bufs.flatten }
    (∃ passed, line'.Heard passed) ∧
      ((∀ fault, outcome.fault = some fault → Caught fault) → Incoming fd outcome.state line') := by
  intro outcome line'
  obtain ⟨interactor, hget⟩ := hattended.2
  have houtcome : outcome = Outcome.forEach (ServerState.receive md5 fd) bufs server := by
    simp only [outcome, ServerState.onRead, hget]
  have hstays : .opened fd ∉ outcome.events := fun hmem => by
    cases (server.serves_onRead md5 fd bufs).events _ hmem
  obtain ⟨hreceived, -, hprocessed⟩ := foldl_note hstays
    { line with received := line.received ++ bufs.flatten }
  have hgiven := Given.receives md5 ⟨interactor, hget, htakes interactor hget⟩ hreads.fits
  simp only at hgiven
  rw [← houtcome] at hgiven
  obtain ⟨hafter, hmessages⟩ := hgiven
  have hdone : (Outcome.rounds (ServerState.receive md5 fd) bufs server).map (·.2) <+: bufs :=
    Outcome.rounds_inOrder bufs server
  have hheard' : line'.Heard (passed ++
      (Outcome.rounds (ServerState.receive md5 fd) bufs server).map (·.2)) := by
    refine ⟨?_, ?_⟩
    · rw [← hmessages, ← hheard.processed]
      exact hprocessed
    · rw [hreceived, List.flatten_append, hall]
      exact (List.prefix_append_right_inj _).mpr hdone.flatten
  refine ⟨⟨_, hheard'⟩, fun hcaught => ⟨_, hheard', fun after hget' => ?_, fun hopen' => ?_⟩⟩
  · obtain ⟨after', hget'', htakes'⟩ := hafter
    obtain rfl := Option.some.inj (hget'.symm.trans hget'')
    exact htakes'
  · rw [houtcome] at hopen' hcaught
    rw [hattended.rounds_eq hreads.quiet hcaught hopen', hreceived, List.flatten_append, hall]

/-- **A read to its end**: nothing comes of a closed handler, and all that is read of an open one is given
to its interactor. -/
theorem Incoming.handleRead_of_lives (h : Incoming fd server line) (hattended : Attended fd server)
    {handler : SocketHandler} (hget : server.handlers[fd]? = some (.socket handler))
    {results : List ReadResult} (hlives : handler.killedByRead results = false)
    (hreads : ReadsWell md5 fd (server.withHandler fd (.socket (handler.read results).1))
      (handler.read results).2) :
    let outcome := (server.handleRead md5 fd handler results).1
    let line' := outcome.events.foldl (note fd)
      { line with received := line.received ++ (handler.read results).2.flatten }
    (∃ passed, line'.Heard passed) ∧ (outcome.fault = none → Incoming fd outcome.state line') := by
  intro outcome line'
  have houtcome : outcome = catchStdException (onRead md5 fd (handler.read results).2
      (server.withHandler fd (.socket (handler.read results).1))) := by
    rw [← passOn_of_lives, ← hlives]
    exact handleRead_eq md5 server fd handler results
  obtain ⟨passed, hheard, htakes, hall⟩ := h
  cases hopen : handler.isOpen with
  | true =>
      have hbefore : server.isOpenAt fd = some true := by
        rw [isOpenAt, hget]
        exact congrArg some hopen
      have hread : Attended fd (server.withHandler fd (.socket (handler.read results).1)) := hattended
      obtain ⟨hafter, hreturns⟩ := heard_onRead md5 hheard (hall hbefore) hread htakes hreads
      simp only [line', houtcome, catchStdException_events, catchStdException_state]
      exact ⟨hafter, fun hfault => hreturns (caught_of_catchStdException hfault)⟩
  | false =>
      -- A closed handler has nothing to be read.
      rw [SocketHandler.read_of_closed hopen] at houtcome
      have hdone : outcome = .done (server.withHandler fd (.socket handler)) := by
        rw [houtcome]
        unfold ServerState.onRead
        split <;> rfl
      have hline : line' = line := by
        simp only [line', hdone, SocketHandler.read_of_closed hopen]
        simp
      have hsame : Incoming fd (server.withHandler fd (.socket handler)) line :=
        Incoming.withHandler ⟨passed, hheard, htakes, hall⟩ hget fun hopen' => hopen'
      rw [hline, hdone]
      exact ⟨⟨passed, hheard⟩, fun _ => hsame⟩

theorem Incoming.handleRead (h : Incoming fd server line) (hattended : Attended fd server)
    {handler : SocketHandler} (hget : server.handlers[fd]? = some (.socket handler))
    {results : List ReadResult}
    (hreads : ReadsWell md5 fd (server.withHandler fd (.socket (handler.read results).1))
      (handler.read results).2) :
    let outcome := (server.handleRead md5 fd handler results).1
    let line' := outcome.events.foldl (note fd)
      { line with received := line.received ++ (handler.read results).2.flatten }
    (∃ passed, line'.Heard passed) ∧ (outcome.fault = none → Incoming fd outcome.state line') := by
  cases hlives : handler.killedByRead results with
  | false => exact h.handleRead_of_lives md5 hattended hget hlives hreads
  | true =>
      -- The process is killed before anything is made of what has been read.
      intro outcome line'
      have houtcome : outcome = .fail (server.withHandler fd (.socket (handler.read results).1)) .killed := by
        simp only [outcome]
        rw [handleRead_eq, hlives]
        rfl
      obtain ⟨passed, hheard, -, -⟩ := h
      simp only [line', houtcome]
      exact ⟨⟨passed, hheard.processed, hheard.inOrder.trans (List.prefix_append _ _)⟩,
        fun hnone => by cases hnone⟩

/-- What is read from the connection is read well, and a connection that is accepted at the descriptor
finds no interactor there. -/
def HearsWell (fd : Fd) (server : ServerState ρ) (step : LoopStep ρ) : Prop :=
  (∀ client ∈ server.accepts step, client.fd = fd → server.interactors[fd]? = none) ∧
    ∀ event handler, step = .event event → event.fd = fd →
      server.handlers[fd]? = some (.socket handler) → event.readable = true →
        ReadsWell md5 fd (server.withHandler fd (.socket (handler.read event.reads).1))
          (handler.read event.reads).2

/-! ### Events -/

theorem Incoming.handleEventWrite (h : Incoming fd server line) (event : PollEvent)
    (canContinue : Bool) : Incoming fd (server.handleEventWrite event canContinue).state line := by
  unfold ServerState.handleEventWrite
  split
  · exact h.handleWrite event.fd event.writes event.pending
  · exact h

/-- **The read of an event**, on this connection or another. -/
theorem Incoming.handleEventRead (h : Incoming fd server line) (hattended : AllAttended server)
    {event : PollEvent} {handler : SocketHandler}
    (hget : server.handlers[event.fd]? = some (.socket handler))
    (hwell : HearsWell md5 fd server (.event event)) :
    let outcome := (server.handleEventRead md5 event handler).1
    let line' := outcome.events.foldl (note fd)
      { line with received := line.received ++ if event.fd = fd then server.readFrom event else [] }
    (∃ passed, line'.Heard passed) ∧ (outcome.fault = none → Incoming fd outcome.state line') := by
  intro outcome line'
  have hread : server.readFrom event =
      if event.readable then (handler.read event.reads).2.flatten else [] := by
    unfold readFrom
    rw [hget]
  cases hreadable : event.readable with
  | false =>
      have hquiet : outcome = .done server := by
        simp only [outcome, ServerState.handleEventRead, hreadable]
        rfl
      have hline : line' = line := by
        simp [line', hquiet, hread, hreadable]
      rw [hline, hquiet]
      exact ⟨⟨_, h.choose_spec.1⟩, fun _ => h⟩
  | true =>
      have houtcome : outcome = (server.handleRead md5 event.fd handler event.reads).1 := by
        simp only [outcome, ServerState.handleEventRead, hreadable, if_true]
      rw [hreadable, if_pos rfl] at hread
      by_cases hfd : event.fd = fd
      · subst hfd
        have hsocket : server.isListenerAt event.fd = some false := by
          rw [isListenerAt, hget]
          rfl
        have hattended' : Attended event.fd server :=
          ⟨hattended.drained, Option.isSome_iff_exists.mp (hattended.interactor event.fd hsocket)⟩
        have hhandled := h.handleRead md5 hattended' hget
          (hwell.2 event handler rfl rfl hget hreadable)
        simp only [line', hread, houtcome, if_true]
        exact hhandled
      · have hput : Incoming fd
            (server.withHandler event.fd (.socket (handler.read event.reads).1)) line :=
          h.withHandler hget SocketHandler.isOpen_of_read
        have hother : Incoming fd outcome.state (outcome.events.foldl (note fd) line) := by
          rw [houtcome, handleRead_eq, catchStdException_state, catchStdException_events]
          unfold passOn
          split
          · exact hput
          · exact hput.onRead_of_ne md5 hfd (handler.read event.reads).2
        simp only [line', if_neg hfd, List.append_nil]
        exact ⟨⟨_, hother.choose_spec.1⟩, fun _ => hother⟩

theorem Incoming.handleEvent (h : Incoming fd server line) (hattended : AllAttended server)
    {event : PollEvent} (hwell : HearsWell md5 fd server (.event event)) :
    let outcome := server.handleEvent md5 event
    let line' := outcome.events.foldl (note fd)
      { line with received := line.received ++ if event.fd = fd then server.readFrom event else [] }
    (∃ passed, line'.Heard passed) ∧ (outcome.fault = none → Incoming fd outcome.state line') := by
  intro outcome line'
  have hsame : ∀ {line : Line}, line.received = line.received ++ [] := by simp
  have hwhole : Incoming fd outcome.state line' →
      (∃ passed, line'.Heard passed) ∧ (outcome.fault = none → Incoming fd outcome.state line') :=
    fun hafter => ⟨⟨_, hafter.choose_spec.1⟩, fun _ => hafter⟩
  have hunread : (∀ handler, server.handlers[event.fd]? ≠ some (.socket handler)) →
      line' = outcome.events.foldl (note fd) line := by
    intro hother
    have hnothing : server.readFrom event = [] := by
      unfold readFrom
      split
      · next handler hget => exact absurd hget (hother handler)
      · rfl
    simp only [line', hnothing, ite_self, List.append_nil]
  cases hget : server.handlers[event.fd]? with
  | none =>
      refine hwhole ?_
      rw [hunread (by simp [hget])]
      simp only [outcome, ServerState.handleEvent, hget]
      exact h
  | some handler =>
      cases handler with
      | listener isOpen =>
          refine hwhole ?_
          rw [hunread (by simp [hget])]
          have haccepts : ∀ client, event.readable = true → event.accept = .ok client →
              server.accepts (.event event) = some client := by
            intro client hreadable haccept
            simp [accepts, isListenerAt, hget, hreadable, haccept, Handler.isListener,
              Except.toOption]
          simp only [outcome, ServerState.handleEvent, hget]
          split
          · next hreadable =>
            split
            · exact h
            · next client haccept =>
              refine h.addHandler fun hfd => ?_
              exact hwell.1 client (haccepts client hreadable haccept) hfd
          · exact h
      | socket handler =>
          obtain ⟨hheard, hreturns⟩ := h.handleEventRead md5 hattended hget hwell
          have houtcome : outcome = _ := handleEvent_of_socket md5 hget
          simp only [line', houtcome]
          cases hfault : (server.handleEventRead md5 event handler).1.fault with
          | some fault =>
              rw [Outcome.andThen_of_fault hfault]
              exact ⟨hheard, fun hnone => by rw [hfault] at hnone; cases hnone⟩
          | none =>
              rw [Outcome.andThen_of_ok hfault]
              simp only [handleEventWrite_events, List.append_nil]
              exact ⟨hheard, fun _ => (hreturns hfault).handleEventWrite event _⟩

/-! ## A step of the loop -/

/-- **A step of the loop** that returns, and what it leaves of the record if it does not. -/
theorem Incoming.loopStep (h : Incoming fd server line) (hattended : AllAttended server)
    {step : LoopStep ρ} (hwell : HearsWell md5 fd server step) :
    (∃ passed, (lineStep md5 fd line server step).Heard passed) ∧
      ((server.loopStep md5 step).fault = none →
        Incoming fd (server.loopStep md5 step).state (lineStep md5 fd line server step)) := by
  have hwhole : ∀ {server' : ServerState ρ} {line' : Line}, Incoming fd server' line' →
      (∃ passed, line'.Heard passed) ∧
        ((server.loopStep md5 step).fault = none → Incoming fd server' line') :=
    fun hafter => ⟨⟨_, hafter.choose_spec.1⟩, fun _ => hafter⟩
  cases step with
  | interrupt configuration =>
      simp only [lineStep, readAt, writtenAt, List.append_nil]
      exact hwhole (h.handleInterrupt configuration)
  | event event =>
      obtain ⟨⟨passed, hheard⟩, hreturns⟩ := h.handleEvent md5 hattended hwell
      exact ⟨⟨passed, hheard.processed, hheard.inOrder⟩,
        fun hfault => (hreturns hfault).congr (fun _ hget => hget) id rfl rfl⟩
  | sweep =>
      have hkeeps : Outcome.Keeps (note fd) (Incoming fd) server server.removeClosedHandlers :=
        Outcome.keeps_forEach (fun fd' s line hline => hline.removeClosedHandler fd') _ server
      simp only [lineStep, readAt, writtenAt, List.append_nil]
      exact hwhole (hkeeps line h)

/-! ### What a step tells -/

omit [RegexEngine ρ] in
theorem mem_sent_foldl_note {events : List ServerEvent} {line : Line} {message : Message}
    (h : message ∈ (events.foldl (note fd) line).sent) :
    message ∈ line.sent ∨ .sent fd message ∈ events := by
  induction events generalizing line with
  | nil => exact .inl h
  | cons event events ih =>
      rcases ih h with hmem | hmem
      · cases event with
        | sent fd' message' =>
            by_cases hfd : fd' = fd
            · rw [note, if_pos hfd] at hmem
              rcases List.mem_append.mp hmem with hmem | hmem
              · exact .inl hmem
              · obtain rfl := List.mem_singleton.mp hmem
                exact .inr (hfd ▸ List.mem_cons_self)
            · rw [note, if_neg hfd] at hmem
              exact .inl hmem
        | opened fd' =>
            by_cases hfd : fd' = fd
            · rw [note, if_pos hfd] at hmem
              cases hmem
            · rw [note, if_neg hfd] at hmem
              exact .inl hmem
        | processed fd' message' =>
            by_cases hfd : fd' = fd
            · rw [note, if_pos hfd] at hmem
              exact .inl hmem
            · rw [note, if_neg hfd] at hmem
              exact .inl hmem
        | closed _ | rejected _ | authenticated _ _ | handled _ _ => exact .inl hmem
      · exact .inr (List.mem_cons_of_mem event hmem)

/-- **What a step of the loop tells** is that a connection is accepted, what serving a connection
leads to, what the hub sends, and that a connection is closed. -/
theorem loopStep_events {step : LoopStep ρ} {Q : ServerEvent → Prop}
    (hopened : ∀ client ∈ server.accepts step, Q (.opened client.fd))
    (hserving : ∀ clients fd event, Serving clients fd event → Q event)
    (hforwards : ∀ (s : ServerState ρ) hubStep event, Forwards s hubStep event → Q event)
    (hclosed : ∀ fd, Q (.closed fd)) : ∀ event ∈ (server.loopStep md5 step).events, Q event := by
  have hhub : ∀ (s : ServerState ρ) hubStep, ∀ event ∈ (s.onHub hubStep).events, Q event :=
    fun s hubStep event hmem => hforwards s hubStep event ((ensures_onHub s hubStep).events event hmem)
  cases step with
  | interrupt configuration =>
      show ∀ event ∈ (server.handleInterrupt configuration).events, Q event
      rw [handleInterrupt_events]
      unfold onInterrupt
      split
      · simp
      · exact hhub _ _
  | event event =>
      show ∀ e ∈ (server.handleEvent md5 event).events, Q e
      cases hget : server.handlers[event.fd]? with
      | none =>
          unfold handleEvent
          rw [hget]
          simp
      | some handler =>
          cases handler with
          | listener isOpen =>
              unfold handleEvent
              rw [hget]
              simp only
              split
              · next hreadable =>
                split
                · simp
                · next client haccept =>
                  refine List.forall_mem_singleton.mpr (hopened client ?_)
                  simp [accepts, isListenerAt, hget, hreadable, haccept, Handler.isListener,
                    Except.toOption]
              · simp
          | socket handler =>
              have hread : ∀ e ∈ (server.handleEventRead md5 event handler).1.events, Q e := by
                unfold handleEventRead
                split
                · rw [handleRead_eq, catchStdException_events]
                  unfold passOn
                  split
                  · simp
                  · exact fun e hmem => hserving _ _ e ((serves_onRead md5 _ event.fd _).events e hmem)
                · simp
              rw [handleEvent_of_socket md5 hget]
              cases hfault : (server.handleEventRead md5 event handler).1.fault with
              | some fault => rwa [Outcome.andThen_of_fault hfault]
              | none =>
                  rw [Outcome.andThen_of_ok hfault]
                  simpa only [handleEventWrite_events, List.append_nil] using hread
  | sweep =>
      have hclose : ∀ (s : ServerState ρ) fd, ∀ event ∈ (s.onClose fd).events, Q event := by
        intro s fd
        unfold onClose
        split
        · simp
        · next interactor _ =>
          refine (Outcome.Ensures.andThen (P := fun _ => True) (F := fun _ => True)
            ⟨trivial, hhub s (.disconnected interactor.address), fun _ _ => trivial⟩
            fun _ _ => Outcome.ensures_emit trivial ?_).events
          exact List.forall_mem_singleton.mpr (hclosed fd)
      refine (Outcome.Ensures.forEach (P := fun _ => True) (F := fun _ => True)
        (fun fd _ s _ => ⟨trivial, ?_, fun _ _ => trivial⟩) trivial).events
      unfold ServerState.removeClosedHandler
      split
      · simp
      · simp only
        split
        · simp
        · exact hclose _ fd

/-- A connection is opened where one is accepted. -/
theorem accepts_of_opened {step : LoopStep ρ} (h : .opened fd ∈ (server.loopStep md5 step).events) :
    ∃ client ∈ server.accepts step, client.fd = fd := by
  have hcause := loopStep_events md5
    (Q := fun event => event = .opened fd → ∃ client ∈ server.accepts step, client.fd = fd)
    (fun client haccepts heq => ⟨client, haccepts, ServerEvent.opened.inj heq⟩)
    (fun _ _ _ h heq => by subst heq; cases h) (fun _ _ _ h heq => by subst heq; cases h)
    fun _ heq => by cases heq
  exact hcause _ h rfl

/-- What is sent is the answer to a login, or a message of the hub. -/
theorem sent_of_loopStep {step : LoopStep ρ} {message : Message}
    (h : .sent fd message ∈ (server.loopStep md5 step).events) :
    message = .authenticationResponse ⟨true⟩ ∨ ∃ clients, Hub.IsForwarded clients message := by
  have hcause : ∀ event ∈ (server.loopStep md5 step).events, event = .sent fd message →
      message = .authenticationResponse ⟨true⟩ ∨ ∃ clients, Hub.IsForwarded clients message := by
    refine loopStep_events md5 (fun _ _ heq => by cases heq) (fun clients _ _ h heq => ?_)
      (fun s _ _ h heq => ?_) fun _ heq => by cases heq
    · subst heq
      exact h.of_sent.imp And.right fun hforwarded => ⟨clients, hforwarded⟩
    · subst heq
      cases h with
      | sent _ _ _ hsends => exact .inr ⟨_, hsends.isForwarded⟩
  exact hcause _ h rfl

/-- The bytes of a record after a step in which the connection goes on. -/
theorem lineStep_bytes {step : LoopStep ρ}
    (hstays : ∀ client ∈ server.accepts step, client.fd ≠ fd) (line : Line) :
    (lineStep md5 fd line server step).received = line.received ++ server.readAt fd step ∧
      (lineStep md5 fd line server step).written =
        line.written ++ server.writtenAt md5 fd step := by
  have hopened : .opened fd ∉ (server.loopStep md5 step).events := by
    intro hmem
    obtain ⟨client, haccepts, hfd⟩ := accepts_of_opened md5 hmem
    exact hstays client haccepts hfd
  obtain ⟨hreceived, hwritten, -⟩ := foldl_note hopened
    { line with received := line.received ++ server.readAt fd step }
  exact ⟨hreceived, congrArg (· ++ server.writtenAt md5 fd step) hwritten⟩

/-! ## Runs -/

/-- Every connection has an interactor, and this one has been listened to. -/
structure Hearing (fd : Fd) (server : ServerState ρ) (line : Line) : Prop where
  attended : AllAttended server
  incoming : Incoming fd server line

theorem Hearing.loopStep (h : Hearing fd server line) {step : LoopStep ρ}
    (hwell : HearsWell md5 fd server step) :
    (∃ passed, (lineStep md5 fd line server step).Heard passed) ∧
      ((server.loopStep md5 step).fault = none →
        Hearing fd (server.loopStep md5 step).state (lineStep md5 fd line server step)) := by
  obtain ⟨hheard, hreturns⟩ := h.incoming.loopStep md5 h.attended hwell
  exact ⟨hheard, fun hfault => ⟨h.attended.loopStep hfault, hreturns hfault⟩⟩

theorem incoming_new {handlers : OrdMap Fd Handler}
    (authenticationManager : AuthenticationManager)
    (authorizationManager : AuthorizationManager ρ) (fd : Fd) :
    Incoming fd (new handlers authenticationManager authorizationManager) .new :=
  ⟨[], ⟨rfl, List.prefix_refl _⟩, fun interactor hget => by simp [new] at hget, fun _ => rfl⟩

/-- **The server hears what a client says, and nothing else.** Suppose that what has been read from a
connection is the beginning of messages on the wire. Then the messages processed on it are the first
of these, in order and each once. -/
theorem processed_run (handlers : OrdMap Fd Handler)
    (hlisteners : ∀ entry ∈ handlers.toList, entry.2.isListener)
    (authenticationManager : AuthenticationManager)
    (authorizationManager : AuthorizationManager ρ) (steps : List (LoopStep ρ)) (fd : Fd)
    (hwell : Outcome.Meets (ServerState.loopStep md5) (HearsWell md5 fd) steps
      (new handlers authenticationManager authorizationManager))
    {messages : List Message} (hmessages : ∀ m ∈ messages, Sendable m)
    (hreceived :
      (lineAt md5 fd steps (new handlers authenticationManager authorizationManager)).received <+:
        messages.flatMap Message.wire) :
    (lineAt md5 fd steps (new handlers authenticationManager authorizationManager)).processed <+:
      messages := by
  have hheard : ∀ (s : ServerState ρ) (line : Line), Hearing fd s line →
      ∃ passed, line.Heard passed := fun _ _ h => ⟨_, h.incoming.choose_spec.1⟩
  have hstep : ∀ (step : LoopStep ρ) s line, Hearing fd s line → HearsWell md5 fd s step →
      (∃ passed, (lineStep md5 fd line s step).Heard passed) ∧
        ((s.loopStep md5 step).fault = none →
          Hearing fd (s.loopStep md5 step).state (lineStep md5 fd line s step)) :=
    fun step s line h hok => h.loopStep md5 hok
  obtain ⟨passed, hpassed⟩ := hwell.summary_of_returns hheard hstep
    ⟨allAttended_new hlisteners authenticationManager authorizationManager,
      incoming_new authenticationManager authorizationManager fd⟩
  have hprocessed : (lineAt md5 fd steps
      (new handlers authenticationManager authorizationManager)).processed = _ := hpassed.processed
  rw [hprocessed]
  exact (Message.ofFrames_run hmessages (hpassed.inOrder.trans hreceived)).2

/-! ### A stream that is cut -/

/-- A read of one chunk is a good read as long as the chunk fits. -/
theorem hearsWell_received {server : ServerState PlainRegex} {buf : Bytes}
    (h : ChunkFits 4 server buf) (writes : List WriteResult) :
    HearsWell zeroDigest 4 server (.event { received [buf] with writes }) := by
  refine ⟨fun client haccepts => by simp [accepts, received, Except.toOption] at haccepts, ?_⟩
  rintro _ handler ⟨⟩ - hget -
  cases hopen : handler.isOpen with
  | true =>
      simp only [received, List.map_cons, List.map_nil, SocketHandler.read, hopen]
      exact ⟨⟨h, fun _ => trivial⟩, trivial⟩
  | false =>
      rw [SocketHandler.read_of_closed hopen]
      exact ⟨trivial, trivial⟩

theorem chunkFits_of_retained {server : ServerState ρ} {buf : Bytes} {n : Nat}
    (hretained : server.interactors[fd]?.map (fun interactor => interactor.reader.fbuf.retained) =
      some n) (hn : n + buf.length < 2 ^ 31) : ChunkFits fd server buf := by
  intro interactor hget
  rw [hget] at hretained
  obtain rfl : interactor.reader.fbuf.retained = n := Option.some.inj hretained
  exact hn

/-- A client logs in and subscribes; the stream is cut in the middle of the login. -/
theorem processed_of_cut_stream :
    (lineAt zeroDigest 4 [.event accepted, .event (received [login.take 7]),
        .event (received [login.drop 7 ++ subscribe])] listening).processed <+:
      [.authenticationRequest ⟨ascii "none", []⟩, .subscriptionRequest ⟨ascii "A", true⟩] := by
  refine processed_run zeroDigest (Std.ExtTreeMap.insert ∅ 3 (.listener true)) (by decide +kernel)
    (.new none) (.new none []) [.event accepted, .event (received [login.take 7]),
      .event (received [login.drop 7 ++ subscribe])] 4
    ⟨⟨fun _ _ _ => by decide +kernel, ?_⟩, fun _ => ⟨hearsWell_received ?_ [], fun _ =>
      ⟨hearsWell_received ?_ [], fun _ => trivial⟩⟩⟩ ?_ (by decide +kernel)
  · rintro _ handler ⟨⟩ hfd
    cases hfd
  · exact chunkFits_of_retained (n := 0) (by decide +kernel) (by decide)
  · exact chunkFits_of_retained (n := 7) (by decide +kernel) (by decide)
  · unfold Sendable
    decide

end ServerState

end SquawkBus.Server
