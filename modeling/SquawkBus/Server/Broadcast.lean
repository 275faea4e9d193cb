import SquawkBus.Library.Bulletin
import SquawkBus.Server.Broker
import SquawkBus.Server.Provenance

/-!
# The order in which data are heard

Publications are handed on in the order in which they are handled. What a client is sent since its
connection was opened is taken from the one sequence of publications handled meanwhile: in order, none
of them twice, each under the name of the user who has published it and with packets that it has
(`heardInOrder_run`). So no two clients hear the same publications in different orders.
-/

namespace SquawkBus.Server

open SquawkBus.Io SquawkBus.Messages SquawkBus.Serialization

/-! ## What is published, and what is heard -/

variable {ρ : Type} [RegexEngine ρ]

/-- A request to publish, and the user it is from. -/
structure Publication where
  user : Bytes
  request : MulticastData

/-- The data are the publication, or some of its packets. -/
structure Conveys (data : ForwardedMulticastData) (publication : Publication) : Prop where
  user : data.user = publication.user
  topic : data.topic = publication.request.topic
  packets : data.dataPackets.Sublist publication.request.dataPackets

/-- Data with packets. A message without any may be that a publisher is gone. -/
def news? : Message → Option ForwardedMulticastData
  | .forwardedMulticastData data => if data.dataPackets = [] then none else some data
  | _ => none

/-- Who has logged in at each descriptor, and what has been published, and heard at one of them, since it
was opened. -/
structure Audience where
  users : Fd → Option Bytes
  bulletin : Bulletin Publication ForwardedMulticastData

def Audience.new : Audience := ⟨fun _ => none, .new⟩

/-- More has happened. -/
def attend (fd : Fd) (audience : Audience) : ServerEvent → Audience
  | .opened fd' =>
      { users := Function.update audience.users fd' none
        bulletin := if fd' = fd then .new else audience.bulletin }
  | .authenticated fd' user => { audience with users := Function.update audience.users fd' (some user) }
  | .handled fd' (.multicastData request) =>
      { audience with bulletin := audience.bulletin.post ⟨(audience.users fd').getD [], request⟩ }
  | .sent fd' message =>
      if fd' = fd then
        { audience with bulletin := (news? message).elim audience.bulletin audience.bulletin.tell }
      else audience
  | _ => audience

/-! ## What a step of the hub sends to one client -/

namespace Hub

variable {identify : Ptr → Identity} (hub : Hub ρ)

/-- **A publication is sent to a client once at most.** -/
theorem news_of_multicast (publisher i : Ptr) (request : MulticastData) :
    let news := ((hub.step identify (.message publisher (.multicastData request))).events.filterMap
      (Call.sentTo i)).filterMap news?
    news = [] ∨ ∃ data, news = [data] ∧ Conveys data ⟨(identify publisher).user, request⟩ := by
  intro news
  have hnews : news = ((PublisherManager.onSendMulticast identify hub.publisherManager publisher request
      hub.subscriptionManager).2.filterMap (Call.sentTo i)).filterMap news? := rfl
  rw [PublisherManager.onSendMulticast_sent] at hnews
  unfold PublisherManager.forwardedInForce at hnews
  rw [PublisherManager.forwarded_eq] at hnews
  rw [hnews]
  split
  · split
    · rw [List.filterMap_cons]
      split
      · exact .inl rfl
      · next data hdata =>
        refine .inr ⟨data, rfl, ?_⟩
        simp only [news?] at hdata
        split at hdata
        · cases hdata
        · obtain rfl := Option.some.inj hdata
          exact ⟨rfl, rfl, List.filter_sublist⟩
    · exact .inl rfl
  · exact .inl rfl

/-- Nothing else is news. -/
theorem news_of_other {step : HubStep ρ}
    (hstep : ∀ publisher request, step ≠ .message publisher (.multicastData request)) (i : Ptr) :
    ((hub.step identify step).events.filterMap (Call.sentTo i)).filterMap news? = [] := by
  refine List.filterMap_eq_nil_iff.mpr fun message hmem => ?_
  cases (step_calls (mem_filterMap_sentTo.mp hmem)).2 i message rfl with
  | multicast publisher request => exact absurd rfl (hstep publisher request)
  | gone publisher topic subscriber hstale => simp [news?]
  | subscription | closed | listen | unicast => rfl

end Hub

namespace ServerState

/-! ## What a call of the hub sends to one descriptor -/

/-- What the event sends to the descriptor. -/
def sentAt (fd : Fd) : ServerEvent → Option Message
  | .sent fd' message => if fd' = fd then some message else none
  | _ => none

/-- What the call sends to the descriptor. -/
def reaching (server : ServerState ρ) (fd : Fd) : Call → Option Message
  | .send i message =>
      (server.interactorAt i).bind fun interactor => if interactor.fd = fd then some message else none
  | _ => none

variable {server server' : ServerState ρ} {fd : Fd} {interactor : Interactor}

theorem sentAt_perform (hsame : server'.interactors = server.interactors) (fd : Fd) (call : Call) :
    (server'.perform call).events.filterMap (sentAt fd) <+: [call].filterMap (server.reaching fd) ∧
      ((server'.perform call).fault = none →
        (server'.perform call).events.filterMap (sentAt fd) =
          [call].filterMap (server.reaching fd)) := by
  have hat : server'.interactorAt call.interactor = server.interactorAt call.interactor := by
    unfold interactorAt
    rw [hsame]
  unfold perform
  rw [hat]
  cases hfound : server.interactorAt call.interactor with
  | none => exact ⟨List.nil_prefix, fun hfault => by cases hfault⟩
  | some interactor =>
      cases call with
      | user i =>
          simp only
          split
          · exact ⟨List.prefix_refl _, fun _ => rfl⟩
          · exact ⟨List.nil_prefix, fun hfault => by cases hfault⟩
      | send i message =>
          have hreaching : [Call.send i message].filterMap (server.reaching fd) =
              [ServerEvent.sent interactor.fd message].filterMap (sentAt fd) := by
            have hfound : server.interactorAt i = some interactor := hfound
            simp [List.filterMap_cons, reaching, hfound, sentAt]
          rw [hreaching]
          simp only [send]
          split
          · exact ⟨List.prefix_refl _, fun _ => rfl⟩
          · exact ⟨List.nil_prefix, fun hfault => by cases hfault⟩
      | str _ | host _ | id _ => exact ⟨List.prefix_refl _, fun _ => rfl⟩

theorem sentAt_forEach_perform (hsame : server'.interactors = server.interactors) (fd : Fd)
    (calls : List Call) :
    (Outcome.forEach perform calls server').events.filterMap (sentAt fd) <+:
        calls.filterMap (server.reaching fd) ∧
      ((Outcome.forEach perform calls server').fault = none →
        (Outcome.forEach perform calls server').events.filterMap (sentAt fd) =
          calls.filterMap (server.reaching fd)) := by
  induction calls generalizing server' with
  | nil => exact ⟨List.prefix_refl _, fun _ => rfl⟩
  | cons call calls ih =>
      obtain ⟨hfirst, hall⟩ := sentAt_perform hsame fd call
      have hstays : (server'.perform call).state.interactors = server.interactors :=
        ((ensures_perform (P := fun _ => True) server' call fun _ _ _ _ => trivial).state.interactors).trans
          hsame
      rw [Outcome.forEach_cons, ← List.singleton_append (l := calls), List.filterMap_append]
      cases hfault : (server'.perform call).fault with
      | some fault =>
          rw [Outcome.andThen_of_fault hfault, hfault]
          exact ⟨hfirst.trans (List.prefix_append _ _), fun hnone => by cases hnone⟩
      | none =>
          obtain ⟨hrest, hreturns⟩ := ih hstays
          rw [Outcome.andThen_of_ok hfault]
          simp only
          rw [List.filterMap_append, hall hfault]
          exact ⟨(List.prefix_append_right_inj _).mpr hrest, fun hnone => by rw [hreturns hnone]⟩

/-- **A call of the hub sends to a descriptor** what its calls send, as far as they come. -/
theorem sentAt_onHub (server : ServerState ρ) (step : HubStep ρ) (fd : Fd) :
    (server.onHub step).events.filterMap (sentAt fd) <+:
        (server.hub.step server.identify step).events.filterMap (server.reaching fd) ∧
      ((server.onHub step).fault = none →
        (server.onHub step).events.filterMap (sentAt fd) =
          (server.hub.step server.identify step).events.filterMap (server.reaching fd)) := by
  have hsame : (server.withHubStep step).interactors = server.interactors := rfl
  obtain ⟨hfirst, hall⟩ :=
    sentAt_forEach_perform hsame fd (server.hub.step server.identify step).events
  unfold onHub
  simp only
  cases hfault : (Outcome.forEach perform (server.hub.step server.identify step).events
    (server.withHubStep step)).fault with
  | some fault =>
      rw [Outcome.andThen_of_fault hfault, hfault]
      exact ⟨hfirst, fun hnone => by cases hnone⟩
  | none =>
      rw [Outcome.andThen_of_ok hfault]
      cases (server.hub.step server.identify step).fault with
      | none => simpa using ⟨hfirst, hall hfault⟩
      | some e => simpa using hfirst

/-! ### Who is reached -/

/-- The calls that reach an interactor are those made on it. -/
theorem Orderly.reaching_eq (h : server.Orderly) (hget : server.interactors[fd]? = some interactor) :
    server.reaching fd = Call.sentTo interactor.address := by
  funext call
  cases call with
  | send i message =>
      simp only [reaching, Call.sentTo]
      by_cases hi : i = interactor.address
      · subst hi
        simp [h.interactorAt hget, h.own fd interactor hget]
      · rw [if_neg hi]
        cases hat : server.interactorAt i with
        | none => rfl
        | some found =>
            obtain ⟨haddress, fd', hget'⟩ := get_of_interactorAt hat
            have hfd : found.fd ≠ fd := by
              intro heq
              rw [h.own fd' found hget'] at heq
              subst heq
              obtain rfl := Option.some.inj (hget'.symm.trans hget)
              exact hi haddress.symm
            simp [hfd]
  | _ => rfl

/-- Where there is no interactor, no call gets. -/
theorem Orderly.reaching_of_none (h : server.Orderly) (hnone : server.interactors[fd]? = none) :
    server.reaching fd = fun _ => none := by
  funext call
  cases call with
  | send i message =>
      simp only [reaching]
      cases hat : server.interactorAt i with
      | none => rfl
      | some found =>
          obtain ⟨-, fd', hget'⟩ := get_of_interactorAt hat
          have hfd : found.fd ≠ fd := by
            rintro rfl
            rw [h.own fd' found hget'] at hnone
            rw [hnone] at hget'
            cases hget'
          simp [hfd]
  | _ => rfl

/-! ## The invariant -/

variable {audience : Audience}

/-- It is known who the users are, and what has been heard at the descriptor has been heard in order. -/
structure Abreast (fd : Fd) (server : ServerState ρ) (audience : Audience) : Prop where
  users : ∀ (fd' : Fd) interactor, server.interactors[fd']? = some interactor →
    interactor.user = audience.users fd'
  inOrder : audience.bulletin.InOrder Conveys

theorem Abreast.congr (h : Abreast fd server audience)
    (hget : ∀ (fd' : Fd) interactor', server'.interactors[fd']? = some interactor' →
      ∃ interactor, server.interactors[fd']? = some interactor ∧ interactor'.user = interactor.user) :
    Abreast fd server' audience := by
  refine ⟨fun fd' interactor' hget' => ?_, h.inOrder⟩
  obtain ⟨interactor, hget, huser⟩ := hget fd' interactor' hget'
  rw [huser]
  exact h.users fd' interactor hget

theorem Abreast.of_interactors (h : Abreast fd server audience)
    (hinteractors : server'.interactors = server.interactors) : Abreast fd server' audience :=
  h.congr fun _ interactor' hget' => ⟨interactor', hinteractors ▸ hget', rfl⟩

/-- When messages have been sent, the news among them have been heard. -/
theorem foldl_attend_sent {events : List ServerEvent}
    (hsent : ∀ event ∈ events, ∃ fd message, event = .sent fd message) (fd : Fd)
    (audience : Audience) :
    events.foldl (attend fd) audience =
      { audience with bulletin :=
          ((events.filterMap (sentAt fd)).filterMap news?).foldl Bulletin.tell audience.bulletin } := by
  induction events generalizing audience with
  | nil => rfl
  | cons event events ih =>
      obtain ⟨fd', message, rfl⟩ := hsent event List.mem_cons_self
      rw [List.foldl_cons, ih fun event hmem => hsent event (List.mem_cons_of_mem _ hmem)]
      by_cases hfd : fd' = fd
      · cases hnews : news? message <;>
          simp [attend, sentAt, hfd, hnews]
      · simp [attend, sentAt, hfd]

theorem sent_of_onHub {step : HubStep ρ} :
    ∀ event ∈ (server.onHub step).events, ∃ fd message, event = .sent fd message := by
  intro event hmem
  cases (server.ensures_onHub step).events event hmem with
  | sent fd i message hsends => exact ⟨fd, message, rfl⟩

/-! ### A call of the hub -/

/-- What the hub sends to a descriptor is the first of what it sends to a client. -/
theorem Orderly.news_onHub (h : server.Orderly) (step : HubStep ρ) (fd : Fd) :
    ∃ i, ((server.onHub step).events.filterMap (sentAt fd)).filterMap news? <+:
      ((server.hub.step server.identify step).events.filterMap (Call.sentTo i)).filterMap news? := by
  have hfirst := ((server.sentAt_onHub step fd).1).filterMap news?
  cases hget : server.interactors[fd]? with
  | some interactor =>
      rw [h.reaching_eq hget] at hfirst
      exact ⟨interactor.address, hfirst⟩
  | none =>
      rw [h.reaching_of_none hget] at hfirst
      refine ⟨0, hfirst.trans ?_⟩
      simp

theorem Orderly.abreast_onHub (h : server.Orderly) {step : HubStep ρ}
    (hstep : ∀ publisher request, step ≠ .message publisher (.multicastData request))
    (habreast : Abreast fd server audience) :
    Abreast fd (server.onHub step).state ((server.onHub step).events.foldl (attend fd) audience) := by
  obtain ⟨i, hnews⟩ := h.news_onHub step fd
  rw [Hub.news_of_other server.hub hstep i] at hnews
  rw [foldl_attend_sent sent_of_onHub, List.prefix_nil.mp hnews]
  exact habreast.of_interactors (server.ensures_onHub step).state.interactors

/-- **A publication** is posted, and those that hear of it are told of it once. -/
theorem Orderly.abreast_multicast (h : server.Orderly) {fd' : Fd}
    (hget : server.interactors[fd']? = some interactor) (huser : interactor.user.isSome)
    (request : MulticastData) (habreast : Abreast fd server audience) :
    let outcome := server.onHub (.message interactor.address (.multicastData request))
    Abreast fd outcome.state (outcome.events.foldl (attend fd)
      (attend fd audience (.handled fd' (.multicastData request)))) := by
  intro outcome
  obtain ⟨user, huser⟩ := Option.isSome_iff_exists.mp huser
  have hwho : (server.identify interactor.address).user = (audience.users fd').getD [] := by
    rw [h.identify hget huser, ← habreast.users fd' interactor hget, huser]
    rfl
  have hsame : outcome.state.interactors = server.interactors :=
    (server.ensures_onHub _).state.interactors
  rw [foldl_attend_sent sent_of_onHub]
  refine ⟨fun fd'' interactor' hget' => habreast.users fd'' interactor' (hsame ▸ hget'), ?_⟩
  obtain ⟨i, hnews⟩ := h.news_onHub (.message interactor.address (.multicastData request)) fd
  rcases Hub.news_of_multicast server.hub interactor.address i request with
    hnone | ⟨data, hdata, hconveys⟩
  · rw [hnone] at hnews
    rw [List.prefix_nil.mp hnews]
    exact habreast.inOrder.post _
  · rw [hdata] at hnews
    rw [hwho] at hconveys
    rcases List.prefix_cons_iff.mp hnews with hnil | ⟨rest, heq, hrest⟩
    · rw [hnil]
      exact habreast.inOrder.post _
    · rw [heq, List.prefix_nil.mp hrest]
      exact habreast.inOrder.post_tell hconveys

/-! ## The calls -/

section

variable (md5 : Bytes → Bytes)

theorem Orderly.abreast_processMessage (h : server.Orderly) {fd' : Fd}
    (hget : server.interactors[fd']? = some interactor) (message : Message) :
    (server.processMessage md5 fd' interactor message).Keeps (attend fd) (Abreast fd) server := by
  intro audience habreast
  cases huser : interactor.user with
  | some user =>
      have hsome : interactor.user.isSome := by simp [huser]
      rw [processMessage_of_user md5 hsome, Outcome.andThen_of_ok rfl]
      simp only [Outcome.emit_state, Outcome.emit_events, List.cons_append, List.nil_append,
        List.foldl_cons]
      cases message with
      | multicastData request => exact h.abreast_multicast hget hsome request habreast
      | _ => exact h.abreast_onHub (by simp) habreast
  | none =>
      rw [processMessage_of_none md5 huser, Outcome.andThen_of_ok rfl]
      cases message with
      | authenticationRequest request =>
          cases hanswer : server.authenticationManager.authenticate md5 request with
          | error e =>
              rw [Outcome.emit_state, authenticate_error md5 hanswer]
              exact habreast
          | ok answer =>
              -- The interactor is known by the answer from now on, and the others as before.
              have hset : ∀ (server' : ServerState ρ) user users,
                  users = Function.update audience.users fd' user → server'.interactors =
                    (server.withInteractor fd' { interactor with user }).interactors →
                  Abreast fd server' { audience with users } := by
                rintro server' user _ rfl hinteractors
                refine ⟨fun fd'' interactor' hget' => ?_, habreast.inOrder⟩
                rw [hinteractors, OrdMap.get_insert] at hget'
                split at hget'
                · next hfd =>
                  obtain rfl := Option.some.inj hget'
                  subst hfd
                  exact (Function.update_self fd' user audience.users).symm
                · next hfd =>
                  show _ = Function.update audience.users fd' user fd''
                  rw [Function.update_of_ne (Ne.symm hfd)]
                  exact habreast.users fd'' interactor' hget'
              have hquiet : ∀ audience : Audience,
                  attend fd audience (.sent fd' (.authenticationResponse ⟨true⟩)) = audience := by
                intro audience
                simp [attend, news?]
              cases answer with
              | some user =>
                  rw [Outcome.emit_state, authenticate_some md5 hanswer]
                  simp only [Outcome.emit_events, List.foldl_cons, List.foldl_nil, List.cons_append,
                    List.nil_append, hquiet]
                  exact hset _ (some user) _ rfl (by simp)
              | none =>
                  rw [Outcome.emit_state, authenticate_none md5 hanswer]
                  simp only [Outcome.emit_events, List.foldl_cons, List.foldl_nil, List.cons_append,
                    List.nil_append, hquiet]
                  refine hset _ none audience.users ?_ (by simp)
                  rw [eq_comm, Function.update_eq_self_iff, ← habreast.users fd' interactor hget, huser]
      | _ =>
          rw [Outcome.emit_state, authenticate_other md5 (by simp)]
          exact habreast.of_interactors (by simp)

omit md5 in
theorem Orderly.abreast_onInterrupt (h : server.Orderly) (configuration : Configuration ρ) :
    (server.onInterrupt configuration).Keeps (attend fd) (Abreast fd) server := by
  unfold ServerState.onInterrupt
  split
  · exact Outcome.keeps_fail (fun _ h => h) _
  · next manager _ =>
    have hloaded : Orderly { server with authenticationManager := manager } := h.congr rfl rfl
    exact fun audience habreast =>
      hloaded.abreast_onHub (by simp) (habreast.of_interactors rfl)

omit md5 in
theorem Orderly.abreast_onClose (h : server.Orderly) (fd' : Fd) :
    (server.onClose fd').Keeps (attend fd) (Abreast fd) server := by
  unfold ServerState.onClose
  split
  · exact Outcome.keeps_done fun _ h => h
  · refine Outcome.Keeps.andThen (fun audience habreast => h.abreast_onHub (by simp) habreast) ?_
    refine Outcome.keeps_emit fun audience habreast => habreast.congr fun fd'' interactor' hget' => ?_
    exact ⟨interactor', (OrdMap.get_of_erase hget').2, rfl⟩

omit md5 in
theorem abreast_onOpen {client : Client} (hnew : server.interactors[client.fd]? = none) :
    (server.onOpen client).Keeps (attend fd) (Abreast fd) server := by
  refine Outcome.keeps_emit fun audience habreast => ⟨fun fd' interactor hget => ?_, ?_⟩
  · change (server.onOpen client).state.interactors[fd']? = some interactor at hget
    show interactor.user = Function.update audience.users client.fd none fd'
    rw [get_onOpen_of_new hnew] at hget
    split at hget
    · next hfd =>
      obtain rfl := Option.some.inj hget
      subst hfd
      exact (Function.update_self client.fd none audience.users).symm
    · next hfd =>
      rw [Function.update_of_ne (Ne.symm hfd)]
      exact habreast.users fd' interactor hget
  · show (if client.fd = fd then Bulletin.new else audience.bulletin).InOrder Conveys
    split
    · exact Bulletin.inOrder_new _
    · exact habreast.inOrder

/-! ## Runs -/

/-- **A step of the loop** keeps what is heard in order. -/
theorem abreast_loopStep {step : LoopStep ρ} (hnew : server.MakesNew step) :
    (server.loopStep md5 step).Keeps (attend fd) (fun s audience => s.Orderly ∧ Abreast fd s audience)
      server := by
  refine keeps_loopStep md5 (fun _ _ _ h => ⟨h.1.congr rfl rfl, h.2.of_interactors rfl⟩)
    (fun s fd' interactor reader audience hget h => ⟨h.1.withReader hget reader, ?_⟩)
    (fun _ _ _ message hget audience h =>
      ⟨h.1.processMessage md5 hget message, h.1.abreast_processMessage md5 hget message audience h.2⟩)
    (fun configuration _ audience h =>
      ⟨h.1.onInterrupt configuration, h.1.abreast_onInterrupt configuration audience h.2⟩)
    (fun _ fd' audience h => ⟨h.1.onClose fd', h.1.abreast_onClose fd' audience h.2⟩)
    fun client haccepts audience h => ⟨h.1.onOpen (hnew client haccepts).2,
      abreast_onOpen (hnew client haccepts).1 audience h.2⟩
  refine h.2.congr fun fd'' interactor' hget' => ?_
  rw [OrdMap.get_insert] at hget'
  split at hget'
  · next hfd =>
    obtain rfl := Option.some.inj hget'
    exact ⟨interactor, hfd ▸ hget, rfl⟩
  · exact ⟨interactor', hget', rfl⟩

theorem abreast_loopSteps {steps : List (LoopStep ρ)} {past : List ServerEvent}
    (h : server.Orderly ∧ Abreast fd server (past.foldl (attend fd) .new))
    (hnew : Outcome.Meets (loopStep md5) MakesNew steps server) :
    (Outcome.forEach (ServerState.loopStep md5) steps server).state.Orderly ∧
      Abreast fd (Outcome.forEach (ServerState.loopStep md5) steps server).state
        ((past ++ (Outcome.forEach (ServerState.loopStep md5) steps server).events).foldl
          (attend fd) .new) := by
  refine hnew.history (fun step s past
    (h : s.Orderly ∧ Abreast fd s (past.foldl (attend fd) .new)) hnew => ?_) h
  rw [List.foldl_append]
  exact abreast_loopStep md5 hnew _ h

/-- **What is heard is heard in order**, at every descriptor, in every run of the loop in which new
interactors are made at new addresses: the data that a client has been sent since its connection was
opened fit, one by one, into the publications that the server has handled meanwhile. -/
theorem heardInOrder_run (handlers : OrdMap Fd Handler) (authenticationManager : AuthenticationManager)
    (authorizationManager : AuthorizationManager ρ) (steps : List (LoopStep ρ)) (fd : Fd)
    (hnew : Outcome.Meets (loopStep md5) MakesNew steps
      (new handlers authenticationManager authorizationManager)) :
    ((Outcome.forEach (ServerState.loopStep md5) steps
      (new handlers authenticationManager authorizationManager)).events.foldl (attend fd)
        .new).bulletin.InOrder Conveys := by
  have hbegun : Abreast fd (new handlers authenticationManager authorizationManager)
      (([] : List ServerEvent).foldl (attend fd) .new) :=
    ⟨fun fd' interactor hget => by simp [new] at hget, Bulletin.inOrder_new _⟩
  exact (abreast_loopSteps md5 ⟨orderly_new _ _ _, hbegun⟩ hnew).2.inOrder

end

theorem heardInOrder_of_selfPublishing :
    ((Outcome.forEach (ServerState.loopStep zeroDigest) selfPublishing permissive).events.foldl
      (attend 4) .new).bulletin.InOrder Conveys :=
  heardInOrder_run zeroDigest (Std.ExtTreeMap.insert ∅ 3 (.listener true)) (.new none)
    (.new none [PublisherManager.granting {0} Role.all]) selfPublishing 4 makesNew_selfPublishing

end ServerState

end SquawkBus.Server
