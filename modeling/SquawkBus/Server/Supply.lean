import SquawkBus.Server.Roll
import Mathlib.Data.List.TakeWhile

/-!
# Subscribers are supplied

What comes of a publication is determined by who has logged in where, who subscribes to what, and the
specifications in force. A publication that is handled is sent at once to each descriptor for which it is
due by the roll, with the packets that are due there, and to no other (`supplied_run`): none is lost
between the socket it came from and the queues of the sockets it goes to.
-/

namespace SquawkBus.Server

open SquawkBus.Io SquawkBus.Messages SquawkBus.Serialization

/-! ## What is due -/

variable {ρ : Type} [RegexEngine ρ]

/-- **What is due** at a descriptor of a publication: the packets that the publisher may publish and the
receiver may have, if it subscribes and there are any. -/
def Roll.due (specs : List (AuthorizationSpec ρ)) (roll : Roll) (publisher : Fd) (request : MulticastData)
    (fd : Fd) : List Publication :=
  let user := (roll.users publisher).getD []
  let shared := scan specs user request.topic Role.publisher ∩
    scan specs ((roll.users fd).getD []) request.topic Role.subscriber
  let packets := request.dataPackets.filter fun packet => packet.isAuthorized shared
  if 0 < roll.subscriptions fd request.topic ∧ packets ≠ [] then [⟨user, ⟨request.topic, packets⟩⟩]
  else []

namespace ServerState

variable {size : Nat} {server : ServerState ρ} {fd : Fd} {interactor : Interactor} {roll : Roll}

/-! ## What comes of a publication -/

def isSent : ServerEvent → Bool
  | .sent _ _ => true
  | _ => false

/-- What a message has of a publication. -/
def publication? (message : Message) : Option Publication :=
  (news? message).map fun data => ⟨data.user, ⟨data.topic, data.dataPackets⟩⟩

/-- What is sent to a descriptor of publications before anything else happens. -/
def tidings (fd : Fd) (events : List ServerEvent) : List Publication :=
  ((events.takeWhile isSent).filterMap (sentAt fd)).filterMap publication?

/-- **Supplied**: whatever has been published since `begun` has been sent on at once to each descriptor,
as far as it was due there. -/
def Supplied (specs : List (AuthorizationSpec ρ)) (begun past : List ServerEvent) : Prop :=
  ∀ pre publisher request rest, past = pre ++ .handled publisher (.multicastData request) :: rest →
    begun <+: pre → ∀ fd, tidings fd rest = (rollOf pre).due specs publisher request fd

variable {specs : List (AuthorizationSpec ρ)} {begun past events : List ServerEvent}

theorem tidings_of_sent (hsent : ∀ event ∈ events, ∃ fd message, event = .sent fd message) (fd : Fd) :
    tidings fd events = (events.filterMap (sentAt fd)).filterMap publication? := by
  have hall : events.takeWhile isSent = events := by
    refine List.takeWhile_eq_self_iff.mpr fun event hmem => ?_
    obtain ⟨fd, message, rfl⟩ := hsent event hmem
    rfl
  rw [tidings, hall]

/-- What brings no tidings adds nothing. -/
theorem tidings_append {fd : Fd} (hquiet : tidings fd events = []) (rest : List ServerEvent) :
    tidings fd (rest ++ events) = tidings fd rest := by
  unfold tidings
  rw [List.takeWhile_append]
  split
  · next hlength =>
    have hall : rest.takeWhile isSent = rest := (List.takeWhile_prefix isSent).eq_of_length hlength
    rw [hall, List.filterMap_append, List.filterMap_append]
    exact (congrArg _ hquiet).trans (List.append_nil _)
  · rfl

theorem supplied_self (specs : List (AuthorizationSpec ρ)) (begun : List ServerEvent) :
    Supplied specs begun begun := by
  intro pre publisher request rest heq hbegun
  have hlong := congrArg List.length heq
  have hshort := hbegun.length_le
  rw [List.length_append, List.length_cons] at hlong
  omega

/-- What has been published is at the end, or before. -/
theorem eq_append_cons {pre rest : List ServerEvent} {event : ServerEvent}
    (h : past ++ events = pre ++ event :: rest) :
    (∃ before, pre = past ++ before ∧ events = before ++ event :: rest) ∨
      ∃ rest', past = pre ++ event :: rest' ∧ rest = rest' ++ events := by
  rcases List.append_eq_append_iff.mp h with ⟨before, hpre, hevents⟩ | ⟨after, hpast, hafter⟩
  · exact .inl ⟨before, hpre, hevents⟩
  · cases after with
    | nil => exact .inl ⟨[], by simpa using hpast.symm, hafter.symm⟩
    | cons event' rest' =>
        obtain ⟨rfl, rfl⟩ := List.cons.inj hafter
        exact .inr ⟨rest', hpast, rfl⟩

/-- Where nothing is published and no tidings are brought, all stay supplied. -/
theorem Supplied.append (h : Supplied specs begun past) (hquiet : ∀ fd, tidings fd events = [])
    (hnone : ∀ publisher request, .handled publisher (.multicastData request) ∉ events) :
    Supplied specs begun (past ++ events) := by
  intro pre publisher request rest heq hbegun fd
  rcases eq_append_cons heq with ⟨before, -, hevents⟩ | ⟨rest', hpast, rfl⟩
  · exact absurd (hevents ▸ by simp) (hnone publisher request)
  · rw [tidings_append (hquiet fd)]
    exact h pre publisher request rest' hpast hbegun fd

/-- **A publication** is supplied by what is sent at once. -/
theorem Supplied.publish (h : Supplied specs begun past) {publisher : Fd} {request : MulticastData}
    (hsent : ∀ event ∈ events, ∃ fd message, event = .sent fd message)
    (hdue : ∀ fd, tidings fd events = (rollOf past).due specs publisher request fd) :
    Supplied specs begun (past ++ .handled publisher (.multicastData request) :: events) := by
  intro pre publisher' request' rest heq hbegun fd
  rcases eq_append_cons heq with ⟨before, rfl, hevents⟩ | ⟨rest', hpast, rfl⟩
  · cases before with
    | nil =>
        obtain ⟨hevent, rfl⟩ := List.cons.inj hevents
        obtain ⟨rfl, hmessage⟩ := ServerEvent.handled.inj hevent
        obtain rfl := Message.multicastData.inj hmessage
        rw [List.append_nil]
        exact hdue fd
    | cons event before =>
        obtain ⟨-, htail⟩ := List.cons.inj hevents
        obtain ⟨fd', message, hfalse⟩ := hsent (.handled publisher' (.multicastData request'))
          (by rw [htail]; simp)
        cases hfalse
  · rw [tidings_append rfl]
    exact h pre publisher' request' rest' hpast hbegun fd

/-! ### One publication -/

/-- The hub calls an interactor by the name of its user. -/
theorem Enrolled.user_identify (h : server.Enrolled size roll)
    (hget : server.interactors[fd]? = some interactor) :
    (server.identify interactor.address).user = (roll.users fd).getD [] := by
  unfold ServerState.identify
  rw [h.orderly.interactorAt hget, ← h.users fd interactor hget]

/-- Who subscribes according to the roll, the hub finds. -/
theorem Enrolled.mem_findSubscribers_iff (h : server.Enrolled size roll)
    (hget : server.interactors[fd]? = some interactor) (topic : Bytes) :
    interactor.address ∈ server.hub.subscriptionManager.findSubscribers topic ↔
      0 < roll.subscriptions fd topic := by
  obtain ⟨balance, haccounts, hbalance⟩ := h.accounts
  rw [(haccounts.counts interactor.address topic).1, hbalance fd interactor hget]

/-- A publication can be sent to all who are called for it. -/
theorem Enrolled.returns_multicast (h : server.Enrolled size roll)
    (hsize : size + size + 2 ^ 12 < 2 ^ 31) (hget : server.interactors[fd]? = some interactor)
    (huser : interactor.user.isSome) {request : MulticastData}
    (hlength : (Message.multicastData request).encode.length ≤ size) :
    (server.onHub (.message interactor.address (.multicastData request))).fault = none := by
  have hmember : server.Member interactor.address := ⟨fd, interactor, hget, rfl, huser⟩
  refine returns_onHub_of_safe ?_ rfl
  refine h.safe hsize (fun i hi => Option.some.inj hi ▸ hmember) fun i m heq => ?_
  cases heq
  exact ⟨Message.fits_of_length (by omega), hlength⟩

/-- Data without packets bring no tidings. -/
theorem publications_forwarded (identify : Ptr → Identity) (publisher : Ptr) (request : MulticastData)
    (given had : Finset Int32) :
    (PublisherManager.forwarded identify publisher request given had).filterMap publication? =
      if getAuthorizedData request.dataPackets (given ∩ had) ≠ [] then
        [⟨(identify publisher).user,
          ⟨request.topic, getAuthorizedData request.dataPackets (given ∩ had)⟩⟩]
      else [] := by
  rw [PublisherManager.forwarded_eq]
  by_cases hempty : getAuthorizedData request.dataPackets (given ∩ had) = []
  · rw [if_neg (not_not.mpr hempty), hempty]
    split <;> rfl
  · rw [if_pos (.inr hempty), if_pos hempty]
    simp [publication?, news?, hempty]

/-- **What the hub sends** of a publication is what is due. -/
theorem Enrolled.tidings_multicast {path : Option Bytes} {cmdLineSpecs : List (AuthorizationSpec ρ)}
    (h : server.Enrolled size roll) (hsize : size + size + 2 ^ 12 < 2 ^ 31)
    (hgoes : AuthorizationManager.GoesBy path cmdLineSpecs
      server.hub.publisherManager.authorizationManager specs)
    (hget : server.interactors[fd]? = some interactor) (huser : interactor.user.isSome)
    {request : MulticastData} (hlength : (Message.multicastData request).encode.length ≤ size)
    (fd' : Fd) :
    tidings fd' (server.onHub (.message interactor.address (.multicastData request))).events =
      roll.due specs fd request fd' := by
  have hreturns := h.returns_multicast hsize hget huser hlength
  rw [tidings_of_sent sent_of_onHub, (sentAt_onHub server _ fd').2 hreturns]
  cases hget' : server.interactors[fd']? with
  | none =>
      rw [h.orderly.reaching_of_none hget', Roll.due, h.absent fd' hget']
      simp
  | some receiver =>
      have hsubscribes := h.mem_findSubscribers_iff hget' request.topic
      -- Of the calls of the step those on the receiver remain: the multicast makes at most one.
      rw [h.orderly.reaching_eq hget']
      change ((Call.id interactor.address :: (PublisherManager.onSendMulticast server.identify
        server.hub.publisherManager interactor.address request server.hub.subscriptionManager).2).filterMap
          (Call.sentTo receiver.address)).filterMap publication? = _
      rw [List.filterMap_cons_none rfl, PublisherManager.onSendMulticast_sent]
      unfold Roll.due
      by_cases hpos : 0 < roll.subscriptions fd' request.topic
      · rw [if_pos (hsubscribes.mpr hpos), PublisherManager.forwardedInForce, publications_forwarded,
          AuthorizationManager.inForce, AuthorizationManager.inForce, hgoes.specs,
          h.user_identify hget, h.user_identify hget']
        exact if_congr (and_iff_right hpos).symm rfl rfl
      · rw [if_neg (mt hsubscribes.mp hpos), if_neg fun hdue => hpos hdue.1]
        rfl

/-! ## The steps of the loop -/

section

variable (md5 : Bytes → Bytes) {passwordFile path : Option Bytes}
  {cmdLineSpecs : List (AuthorizationSpec ρ)} {found : List (Configuration ρ)}

/-- **What the supply rests on**: the roll and the specifications in force. -/
structure Supplying (size : Nat) (passwordFile path : Option Bytes)
    (cmdLineSpecs : List (AuthorizationSpec ρ)) (found : List (Configuration ρ))
    (begun : List ServerEvent) (server : ServerState ρ) (past : List ServerEvent) : Prop where
  enrolled : EnrolledIf size server past
  goesBy : GoesBy passwordFile path cmdLineSpecs found server
  supplied : Lawful size past → Supplied (specsInForce passwordFile path cmdLineSpecs found) begun past

/-- A message that is not handled, or is not about a publication, brings no tidings. -/
theorem tidings_onHub {step : HubStep ρ} (horderly : server.Orderly)
    (hstep : ∀ publisher request, step ≠ .message publisher (.multicastData request)) (fd : Fd) :
    tidings fd (server.onHub step).events = [] := by
  obtain ⟨i, hnews⟩ := horderly.news_onHub step fd
  rw [Hub.news_of_other server.hub hstep i] at hnews
  have hnone := List.filterMap_eq_nil_iff.mp (List.prefix_nil.mp hnews)
  rw [tidings_of_sent sent_of_onHub]
  refine List.filterMap_eq_nil_iff.mpr fun message hmem => ?_
  unfold publication?
  rw [hnone message hmem]
  rfl

theorem keeps_supplying_processMessage (hsize : size + size + 2 ^ 12 < 2 ^ 31)
    (hget : server.interactors[fd]? = some interactor) (message : Message) :
    (server.processMessage md5 fd interactor message).Keeps record
      (Supplying size passwordFile path cmdLineSpecs found begun) server := by
  intro past h
  have hgone := keeps_goneBy_processMessage md5 server fd interactor message [] ⟨h.goesBy, Run.abides_nil _⟩
  have hkept := keeps_enrolled_processMessage md5 hget message past h.enrolled
  refine ⟨hkept, hgone.goesBy, fun hlawful => ?_⟩
  rw [foldl_record] at hlawful ⊢
  have henrolled := h.enrolled hlawful.of_append
  have hsupplied := h.supplied hlawful.of_append
  cases huser : interactor.user with
  | some user =>
      have hsome : interactor.user.isSome := by simp [huser]
      rw [processMessage_of_user md5 hsome, Outcome.andThen_of_ok rfl] at hlawful ⊢
      simp only [Outcome.emit_state, Outcome.emit_events, List.cons_append, List.nil_append] at hlawful ⊢
      have hlength : message.encode.length ≤ size := hlawful.last
      have hprocessed : Supplied (specsInForce passwordFile path cmdLineSpecs found) begun
          (past ++ [.processed fd message]) := hsupplied.append (fun _ => rfl) (by simp)
      rw [← List.singleton_append (x := ServerEvent.processed fd message), ← List.append_assoc]
      -- The hub is called when the message has been processed and noted as handled.
      by_cases hmulticast : ∃ request, message = .multicastData request
      · obtain ⟨request, rfl⟩ := hmulticast
        refine hprocessed.publish sent_of_onHub fun fd' => ?_
        rw [rollOf_append]
        exact henrolled.tidings_multicast hsize h.goesBy.authorizations hget hsome hlength fd'
      · refine hprocessed.append (fun fd' => rfl) fun publisher request hmem => ?_
        rcases List.mem_cons.mp hmem with heq | hmem
        · exact hmulticast ⟨request, (ServerEvent.handled.inj heq).2.symm⟩
        · obtain ⟨fd', message', hfalse⟩ := sent_of_onHub _ hmem
          cases hfalse
  | none =>
      rw [processMessage_of_none md5 huser, Outcome.andThen_of_ok rfl]
      -- Who has not logged in publishes nothing, whatever comes of the message.
      refine hsupplied.append (fun fd' => rfl) ?_
      cases message with
      | authenticationRequest request =>
          cases hanswer : server.authenticationManager.authenticate md5 request with
          | error e =>
              rw [Outcome.emit_state, authenticate_error md5 hanswer]
              simp
          | ok answer =>
              cases answer with
              | some user =>
                  rw [Outcome.emit_state, authenticate_some md5 hanswer]
                  simp
              | none =>
                  rw [Outcome.emit_state, authenticate_none md5 hanswer]
                  simp
      | _ =>
          rw [Outcome.emit_state, authenticate_other md5 (by simp)]
          simp

omit md5 in
theorem keeps_supplying_onClose (hsize : size + size + 2 ^ 12 < 2 ^ 31) (server : ServerState ρ)
    (fd : Fd) :
    (server.onClose fd).Keeps record (Supplying size passwordFile path cmdLineSpecs found begun)
      server := by
  intro past h
  refine ⟨keeps_enrolled_onClose hsize server fd past h.enrolled, h.goesBy.onClose fd, fun hlawful => ?_⟩
  rw [foldl_record] at hlawful ⊢
  have henrolled := h.enrolled hlawful.of_append
  have hsupplied := h.supplied hlawful.of_append
  cases hget : server.interactors[fd]? with
  | none =>
      unfold ServerState.onClose
      rw [hget]
      simpa using hsupplied
  | some interactor =>
      obtain ⟨-, sent, hevents, hsent⟩ := henrolled.onClose hsize hget
      rw [hevents]
      refine hsupplied.append (fun fd' => ?_) ?_
      · rw [tidings_append rfl]
        rcases hsent with rfl | rfl
        · rfl
        · exact tidings_onHub henrolled.orderly (by simp) fd'
      · rcases hsent with rfl | rfl
        · simp
        · intro publisher request hmem
          rcases List.mem_append.mp hmem with hmem | hmem
          · obtain ⟨fd', message, hfalse⟩ := sent_of_onHub _ hmem
            cases hfalse
          · cases List.mem_singleton.mp hmem

/-- **A step of the loop between the interrupts.** -/
theorem keeps_supplying_loopStep (hsize : size + size + 2 ^ 12 < 2 ^ 31) {step : LoopStep ρ}
    (hadmits : server.Admits step) (hstep : ∀ configuration, step ≠ .interrupt configuration) :
    (server.loopStep md5 step).Keeps record (Supplying size passwordFile path cmdLineSpecs found begun)
      server := by
  refine keeps_loopStep md5 (fun s handlers past h => ?_) (fun s fd interactor reader past hget h => ?_)
    (fun _ _ _ message hget => keeps_supplying_processMessage md5 hsize hget message)
    (fun configuration heq => absurd heq (hstep configuration))
    (fun s fd => keeps_supplying_onClose hsize s fd) fun client haccepts past h => ?_
  · exact ⟨fun hlawful => (h.enrolled hlawful).congr rfl rfl, h.goesBy.congr rfl rfl, h.supplied⟩
  · exact ⟨fun hlawful => (h.enrolled hlawful).withReader hget reader, h.goesBy.congr rfl rfl, h.supplied⟩
  · refine ⟨keeps_enrolled_onOpen (hadmits.1 client haccepts) (hadmits.2 client haccepts) past h.enrolled,
      h.goesBy.congr rfl rfl, fun hlawful => ?_⟩
    rw [foldl_record] at hlawful ⊢
    exact (h.supplied hlawful.of_append).append (fun _ => rfl) (by simp [onOpen])

/-! ### Runs -/

/-- **Subscribers are supplied**, in every run of a server: of each publication handled at a step of the
loop, what is due at a descriptor by the roll and by the specifications in force is sent there at once,
and nothing else is. -/
theorem supplied_run (hsize : size + size + 2 ^ 12 < 2 ^ 31) (handlers : OrdMap Fd Handler)
    (passwordFile path : Option Bytes) (cmdLineSpecs : List (AuthorizationSpec ρ))
    (startup : Configuration ρ) (steps : List (LoopStep ρ))
    (hreturns : ((new handlers (.new passwordFile) (.new path cmdLineSpecs)).startUp md5 startup
      steps).fault = none) (step : LoopStep ρ)
    (hadmits : Outcome.Meets (loopStep md5) Admits (steps ++ [step])
      ((new handlers (.new passwordFile) (.new path cmdLineSpecs)).onInterrupt startup).state) :
    let run := (new handlers (.new passwordFile) (.new path cmdLineSpecs)).startUp md5 startup steps
    Lawful size (run.events ++ (run.state.loopStep md5 step).events) →
      Supplied (specsInForce passwordFile path cmdLineSpecs (startup :: interrupts steps)) run.events
        (run.events ++ (run.state.loopStep md5 step).events) := by
  intro run hlawful
  have hgoes : GoesBy passwordFile path cmdLineSpecs (startup :: interrupts steps) run.state :=
    goesBy_startUp md5 hreturns
  obtain ⟨hstart, hsteps⟩ := Outcome.returns_andThen hreturns
  obtain ⟨hbefore, hlast⟩ := Outcome.meets_append.mp hadmits
  have hrun : run = _ := Outcome.andThen_of_ok hstart _
  have henrolled : EnrolledIf size run.state run.events := by
    rw [hrun]
    refine enrolled_loopSteps md5 hsize (fun _ => ?_) hbefore
    rw [onInterrupt_events]
    exact (enrolled_new handlers (.new passwordFile) (.new path cmdLineSpecs)).onInterrupt startup
  have hadmitted : run.state.Admits step := by
    rw [hrun]
    exact (hlast hsteps).1
  by_cases hstep : ∃ configuration, step = .interrupt configuration
  · -- The specifications it loads are in force from the next step on, and it publishes nothing.
    obtain ⟨configuration, rfl⟩ := hstep
    rw [ServerState.loopStep, handleInterrupt_events, onInterrupt_events, List.append_nil]
    exact supplied_self _ _
  · have hkept := keeps_supplying_loopStep md5 hsize hadmitted (not_exists.mp hstep) run.events
      ⟨henrolled, hgoes, fun _ => supplied_self _ _⟩
    rw [foldl_record] at hkept
    exact hkept.supplied hlawful

end

/-! ## A client that hears itself -/

theorem admits_selfPublishing :
    Outcome.Meets (ServerState.loopStep zeroDigest) Admits [.event accepted, .event publishingToItself]
      (permissive.onInterrupt ⟨none, fun _ => .ok []⟩).state := by
  have hnew := makesNew_selfPublishing.2 (by decide +kernel)
  rw [ServerState.loopStep, handleInterrupt_state] at hnew
  refine ⟨⟨hnew.1, fun client haccepts => ?_⟩, fun hreturns =>
    ⟨⟨(hnew.2 hreturns).1, fun client haccepts => ?_⟩, fun _ => trivial⟩⟩
  · have haccept : client ∈ accepted.accept.toOption := by
      unfold accepts at haccepts
      simp only at haccepts
      split at haccepts
      · exact haccepts
      · cases haccepts
    obtain rfl := Option.some.inj haccept
    decide
  · simp [accepts, publishingToItself, received, Except.toOption] at haccepts

/-- What the client is sent of its two packets: the one with an entitlement that all have. -/
theorem supplied_of_selfPublishing :
    let run := (new (Std.ExtTreeMap.insert ∅ 3 (.listener true)) (.new none)
      (.new none [PublisherManager.granting {0} Role.all])).startUp zeroDigest ⟨none, fun _ => .ok []⟩
        [.event accepted]
    Supplied (specsInForce none none [PublisherManager.granting {0} Role.all]
        (⟨none, fun _ => .ok []⟩ :: interrupts [LoopStep.event accepted])) run.events
      (run.events ++ (run.state.loopStep zeroDigest (.event publishingToItself)).events) := by
  refine supplied_run zeroDigest (by decide : 1000 + 1000 + 2 ^ 12 < 2 ^ 31) _ _ _ _ _ _
    (by decide +kernel) _ admits_selfPublishing ?_
  have hevents : ((new (Std.ExtTreeMap.insert ∅ 3 (.listener true)) (.new none)
      (.new none [PublisherManager.granting {0} Role.all])).startUp zeroDigest ⟨none, fun _ => .ok []⟩
        [.event accepted]).events ++
      (((new (Std.ExtTreeMap.insert ∅ 3 (.listener true)) (.new none)
        (.new none [PublisherManager.granting {0} Role.all])).startUp zeroDigest
          ⟨none, fun _ => .ok []⟩ [.event accepted]).state.loopStep zeroDigest
            (.event publishingToItself)).events =
      [.opened 4, .processed 4 (.authenticationRequest ⟨ascii "none", []⟩),
        .authenticated 4 (ascii "nobody"), .sent 4 (.authenticationResponse ⟨true⟩),
        .processed 4 (.subscriptionRequest ⟨ascii "A", true⟩),
        .handled 4 (.subscriptionRequest ⟨ascii "A", true⟩),
        .processed 4 (.multicastData ⟨ascii "A", [⟨0, ascii "json", [7]⟩, ⟨1, ascii "json", [8]⟩]⟩),
        .handled 4 (.multicastData ⟨ascii "A", [⟨0, ascii "json", [7]⟩, ⟨1, ascii "json", [8]⟩]⟩),
        .sent 4 (.forwardedMulticastData ⟨ascii "nobody", ascii "host", ascii "A",
          [⟨0, ascii "json", [7]⟩]⟩)] := by
    decide +kernel
  rw [hevents]
  simp only [Lawful, Run.meets_cons]
  exact ⟨trivial, (by decide : _ ≤ 1000), trivial, trivial, (by decide : _ ≤ 1000),
    (by decide : 0 + 1 < 2 ^ 31), (by decide : _ ≤ 1000), trivial, trivial, Run.meets_nil _ _ _⟩

end ServerState

end SquawkBus.Server
