import SquawkBus.Server.Conversation
import SquawkBus.Server.Delivery

/-!
# Where data come from

What the server sends on a topic under the name of a user comes from that user: from a connection on which
the user has logged in and which has not been opened again since, and at the moment when the request
with these packets is handled (`genuine_run`). Nothing is made up, nothing is sent under another
name, and nothing is kept to be sent again.
-/

namespace SquawkBus.Server

open SquawkBus.Io SquawkBus.Messages SquawkBus.Serialization

/-! ## Logins and requests -/

variable {ρ : Type} [RegexEngine ρ]

/-- The events up to here are those before the user has logged in at the descriptor, the login, and those
since, among which the descriptor is not opened again. -/
def LoginAt (fd : Fd) (user : Bytes) (before since past : List ServerEvent) : Prop :=
  past = before ++ .authenticated fd user :: since ∧ .opened fd ∉ since

/-- Nothing but the sending of messages has happened since the request was handled. -/
def Handling (fd : Fd) (request : MulticastData) (since : List ServerEvent) : Prop :=
  ∃ earlier sendings, since = earlier ++ .handled fd (.multicastData request) :: sendings ∧
    ∀ event ∈ sendings, ∃ fd' message, event = .sent fd' message

/-- **Data are genuine** after these events: their user has logged in, and their packets, if there are
any, are of a request of this connection that is being handled. -/
def Genuine (data : ForwardedMulticastData) (past : List ServerEvent) : Prop :=
  ∃ fd before since, LoginAt fd data.user before since past ∧
    (data.dataPackets ≠ [] → ∃ request : MulticastData, Handling fd request since ∧
      data.topic = request.topic ∧ data.dataPackets.Sublist request.dataPackets)

/-- Whenever data are sent, they are genuine. -/
def AllGenuine (events : List ServerEvent) : Prop :=
  ∀ pre fd data, pre ++ [.sent fd (.forwardedMulticastData data)] <+: events → Genuine data pre

variable {fd fd' : Fd} {user : Bytes} {before since past : List ServerEvent} {event : ServerEvent}

theorem LoginAt.snoc (h : LoginAt fd user before since past) (hevent : event ≠ .opened fd) :
    LoginAt fd user before (since ++ [event]) (past ++ [event]) := by
  refine ⟨by rw [h.1]; simp, fun hmem => ?_⟩
  rcases List.mem_append.mp hmem with hmem | hmem
  · exact h.2 hmem
  · exact hevent (List.mem_singleton.mp hmem).symm

theorem Handling.snoc {request : MulticastData} (h : Handling fd request since) (fd' : Fd)
    (message : Message) : Handling fd request (since ++ [.sent fd' message]) := by
  obtain ⟨earlier, sendings, rfl, hsendings⟩ := h
  exact ⟨earlier, sendings ++ [.sent fd' message], by simp,
    List.forall_mem_append.mpr ⟨hsendings, by simp⟩⟩

theorem allGenuine_nil : AllGenuine [] := by
  intro pre fd data hpre
  simp at hpre

theorem AllGenuine.snoc (h : AllGenuine past)
    (hevent : ∀ fd data, event = .sent fd (.forwardedMulticastData data) → Genuine data past) :
    AllGenuine (past ++ [event]) := by
  intro pre fd data hpre
  rcases List.prefix_concat_iff.mp hpre with heq | hold
  · obtain ⟨rfl, hlast⟩ := List.append_inj' heq rfl
    exact hevent fd data (List.singleton_inj.mp hlast).symm
  · exact h pre fd data hold

namespace ServerState

/-! ## The invariant -/

/-- Who has a user has logged in, and all data so far were genuine. -/
structure Traced (server : ServerState ρ) (past : List ServerEvent) : Prop where
  users : ∀ (fd : Fd) interactor user, server.interactors[fd]? = some interactor →
    interactor.user = some user → ∃ before since, LoginAt fd user before since past
  genuine : AllGenuine past

variable {server server' : ServerState ρ} {interactor : Interactor}

/-- An event that opens no connection and sends no data is of no account. -/
def Idle : ServerEvent → Prop
  | .opened _ => False
  | .sent _ (.forwardedMulticastData _) => False
  | _ => True

theorem Traced.congr (h : Traced server past)
    (hget : ∀ (fd : Fd) (interactor' : Interactor) (user : Bytes),
      server'.interactors[fd]? = some interactor' → interactor'.user = some user →
        ∃ interactor, server.interactors[fd]? = some interactor ∧ interactor.user = some user) :
    Traced server' past := by
  refine ⟨fun fd interactor' user hget' huser' => ?_, h.genuine⟩
  obtain ⟨interactor, hget, huser⟩ := hget fd interactor' user hget' huser'
  exact h.users fd interactor user hget huser

theorem Traced.of_interactors (h : Traced server past)
    (hinteractors : server'.interactors = server.interactors) : Traced server' past :=
  h.congr fun _ interactor' _ hget' huser' => ⟨interactor', hinteractors ▸ hget', huser'⟩

theorem Traced.withReader (h : Traced server past) (hget : server.interactors[fd]? = some interactor)
    (reader : FrameReader) : Traced (server.withInteractor fd { interactor with reader }) past := by
  refine h.congr fun fd' interactor' user hget' huser' => ?_
  rw [OrdMap.get_insert] at hget'
  split at hget'
  · next hfd =>
    obtain rfl := Option.some.inj hget'
    exact ⟨interactor, hfd ▸ hget, huser'⟩
  · exact ⟨interactor', hget', huser'⟩

theorem Traced.snoc (h : Traced server past) (hopened : ∀ fd, event ≠ .opened fd)
    (hevent : ∀ fd data, event = .sent fd (.forwardedMulticastData data) → Genuine data past) :
    Traced server (record past event) := by
  refine ⟨fun fd interactor user hget huser => ?_, h.genuine.snoc hevent⟩
  obtain ⟨before, since, hlogin⟩ := h.users fd interactor user hget huser
  exact ⟨before, since ++ [event], hlogin.snoc (hopened fd)⟩

theorem Traced.idle (h : Traced server past) (event : ServerEvent) (hidle : Idle event) :
    Traced server (record past event) := by
  refine h.snoc (fun fd heq => ?_) fun fd data heq => ?_
  · subst heq
    exact hidle.elim
  · subst heq
    exact hidle.elim

/-! ## Calls of the hub -/

/-- A step of the hub is on behalf of a user who has logged in, and whose request, if it is one to
publish, is being handled. -/
def OnBehalf (server : ServerState ρ) (step : HubStep ρ) (past : List ServerEvent) : Prop :=
  ∀ i, step.interactor? = some i → ∃ (fd : Fd) (interactor : Interactor) (user : Bytes),
    server.interactors[fd]? = some interactor ∧ interactor.address = i ∧
      interactor.user = some user ∧ ∃ before since, LoginAt fd user before since past ∧
        ∀ request, step = .message i (.multicastData request) → Handling fd request since

theorem OnBehalf.sent {step : HubStep ρ} (h : OnBehalf server step past) (fd : Fd) (message : Message) :
    OnBehalf server step (record past (.sent fd message)) := by
  intro i hi
  obtain ⟨fd', interactor, user, hget, haddress, huser, before, since, hlogin, hhandling⟩ := h i hi
  exact ⟨fd', interactor, user, hget, haddress, huser, before, since ++ [.sent fd message],
    hlogin.snoc (by simp), fun request hrequest => (hhandling request hrequest).snoc fd message⟩

/-- The hub calls an interactor by the name of its user. -/
theorem Orderly.identify (h : server.Orderly) (hget : server.interactors[fd]? = some interactor)
    (huser : interactor.user = some user) : (server.identify interactor.address).user = user := by
  unfold ServerState.identify
  rw [h.interactorAt hget]
  simp [huser]

/-- **Data that the hub sends** on behalf of a user are genuine. -/
theorem Orderly.genuine (h : server.Orderly) {step : HubStep ρ} {i : Ptr}
    {data : ForwardedMulticastData}
    (hsends : Hub.Sends server.identify server.hub step i (.forwardedMulticastData data))
    (hbehalf : OnBehalf server step past) : Genuine data past := by
  generalize hmessage : Message.forwardedMulticastData data = message at hsends
  cases hsends with
  | multicast publisher request subscriber packets hpackets hnone =>
      obtain rfl := Message.forwardedMulticastData.inj hmessage
      obtain ⟨fd, interactor, user, hget, rfl, huser, before, since, hlogin, hhandling⟩ :=
        hbehalf publisher rfl
      refine ⟨fd, before, since, ?_, fun _ => ⟨request, hhandling request rfl, rfl, hpackets⟩⟩
      rw [h.identify hget huser]
      exact hlogin
  | gone publisher topic subscriber hstale =>
      obtain rfl := Message.forwardedMulticastData.inj hmessage
      obtain ⟨fd, interactor, user, hget, rfl, huser, before, since, hlogin, -⟩ :=
        hbehalf publisher rfl
      refine ⟨fd, before, since, ?_, fun hne => absurd rfl hne⟩
      rw [h.identify hget huser]
      exact hlogin
  | subscription | closed | listen | unicast => cases hmessage

/-- A call on the hub on behalf of a user. -/
theorem Orderly.traced_onHub (h : server.Orderly) {step : HubStep ρ} (htraced : Traced server past)
    (hbehalf : OnBehalf server step past) :
    Traced (server.onHub step).state ((server.onHub step).events.foldl record past) := by
  have hkeeps : (server.onHub step).Keeps record
      (fun s past => Traced s past ∧ OnBehalf server step past) server := by
    refine ServerState.keeps_onHub (fun s handlers past hs => ⟨hs.1.of_interactors rfl, hs.2⟩)
      (fun past hs => ⟨hs.1.of_interactors rfl, hs.2⟩)
      fun i message interactor hcall hat handlers past hs => ?_
    refine ⟨hs.1.snoc (by simp) fun fd data heq => ?_, hs.2.sent _ _⟩
    have hsends := (Hub.step_calls hcall).2 i message rfl
    rw [(ServerEvent.sent.inj heq).2] at hsends
    exact h.genuine hsends hs.2
  exact (hkeeps past ⟨htraced, hbehalf⟩).1

/-! ## The other calls -/

section

variable (md5 : Bytes → Bytes)

theorem Orderly.traced_processMessage (h : server.Orderly)
    (hget : server.interactors[fd]? = some interactor) (message : Message) :
    (server.processMessage md5 fd interactor message).Keeps record Traced server := by
  intro past hpast
  cases huser : interactor.user with
  | some user =>
      have hsome : interactor.user.isSome := by simp [huser]
      have hhandled : Traced server (record (record past (.processed fd message)) (.handled fd message)) :=
        (hpast.idle (.processed fd message) trivial).idle (.handled fd message) trivial
      rw [processMessage_of_user md5 hsome, Outcome.andThen_of_ok rfl]
      simp only [Outcome.emit_state, Outcome.emit_events, List.cons_append, List.nil_append,
        List.foldl_cons]
      refine h.traced_onHub hhandled fun i hi => ?_
      obtain rfl : interactor.address = i := Option.some.inj hi
      obtain ⟨before, since, hlogin⟩ := hpast.users fd interactor user hget huser
      refine ⟨fd, interactor, user, hget, rfl, huser, before, since ++ [.processed fd message] ++
        [.handled fd message], (hlogin.snoc (by simp)).snoc (by simp), ?_⟩
      rintro request ⟨⟩
      exact ⟨since ++ [.processed fd (.multicastData request)], [], by simp, by simp⟩
  | none =>
      have hprocessed : Traced server (record past (.processed fd message)) := hpast.idle _ trivial
      rw [processMessage_of_none md5 huser, Outcome.andThen_of_ok rfl]
      cases message with
      | authenticationRequest request =>
          cases hanswer : server.authenticationManager.authenticate md5 request with
          | error e =>
              rw [Outcome.emit_state, authenticate_error md5 hanswer]
              exact hprocessed
          | ok answer =>
              -- The others are those there were.
              have hothers : ∀ (user' : Option Bytes) (fd' : Fd) interactor' user, fd' ≠ fd →
                  (server.withInteractor fd { interactor with user := user' }).interactors[fd']? =
                    some interactor' → interactor'.user = some user →
                      ∃ interactor, server.interactors[fd']? = some interactor ∧
                        interactor.user = some user := by
                intro user' fd' interactor' user hfd hget' huser'
                rw [OrdMap.get_insert, if_neg (Ne.symm hfd)] at hget'
                exact ⟨interactor', hget', huser'⟩
              cases answer with
              | some user =>
                  rw [Outcome.emit_state, authenticate_some md5 hanswer]
                  have hset : Traced (server.withInteractor fd { interactor with user := some user })
                      (record (record past (.processed fd (.authenticationRequest request)))
                        (.authenticated fd user)) := by
                    refine ⟨fun fd' interactor' user' hget' huser' => ?_,
                      (hprocessed.idle (.authenticated fd user) trivial).genuine⟩
                    by_cases hfd : fd' = fd
                    · subst hfd
                      rw [get_withInteractor] at hget'
                      obtain rfl := Option.some.inj hget'
                      obtain rfl := Option.some.inj huser'
                      exact ⟨_, [], rfl, List.not_mem_nil⟩
                    · obtain ⟨was, hwas, huser⟩ := hothers _ fd' interactor' user' hfd hget' huser'
                      exact (hprocessed.idle (.authenticated fd user) trivial).users fd' was
                        user' hwas huser
                  refine Traced.of_interactors
                    (hset.idle (.sent fd (.authenticationResponse ⟨true⟩)) trivial) ?_
                  simp
              | none =>
                  rw [Outcome.emit_state, authenticate_none md5 hanswer]
                  have hset : Traced (server.withInteractor fd { interactor with user := none })
                      (record past (.processed fd (.authenticationRequest request))) := by
                    refine hprocessed.congr fun fd' interactor' user' hget' huser' => ?_
                    by_cases hfd : fd' = fd
                    · subst hfd
                      rw [get_withInteractor] at hget'
                      obtain rfl := Option.some.inj hget'
                      cases huser'
                    · exact hothers _ fd' interactor' user' hfd hget' huser'
                  refine Traced.of_interactors ((hset.idle (.rejected fd) trivial).idle
                    (.sent fd (.authenticationResponse ⟨true⟩)) trivial) ?_
                  simp
      | _ =>
          rw [Outcome.emit_state, authenticate_other md5 (by simp)]
          refine Traced.of_interactors (hprocessed.idle (.rejected fd) trivial) ?_
          simp

omit md5 in
theorem Orderly.traced_onInterrupt (h : server.Orderly) (configuration : Configuration ρ) :
    (server.onInterrupt configuration).Keeps record Traced server := by
  unfold ServerState.onInterrupt
  split
  · exact Outcome.keeps_fail (fun _ h => h) _
  · next manager _ =>
    have hloaded : Orderly { server with authenticationManager := manager } := h.congr rfl rfl
    exact fun past hpast => hloaded.traced_onHub (hpast.of_interactors rfl) fun _ hi => by cases hi

omit md5 in
theorem Orderly.traced_onClose (h : server.Orderly) (fd : Fd) :
    (server.onClose fd).Keeps record Traced server := by
  have herased : ∀ (s : ServerState ρ) past, Traced s past →
      Traced { s with interactors := s.interactors.erase fd } (record past (.closed fd)) := by
    intro s past hs
    refine (hs.idle (.closed fd) trivial).congr fun fd' interactor' user hget' huser' => ?_
    exact ⟨interactor', (OrdMap.get_of_erase hget').2, huser'⟩
  cases hget : server.interactors[fd]? with
  | none =>
      unfold ServerState.onClose
      rw [hget]
      exact Outcome.keeps_done fun _ h => h
  | some interactor =>
      cases huser : interactor.user with
      | none =>
          rw [h.admitted.onClose_of_stranger hget huser]
          exact Outcome.keeps_emit (herased server)
      | some user =>
          unfold ServerState.onClose
          rw [hget]
          refine Outcome.Keeps.andThen (fun past hpast => ?_) (Outcome.keeps_emit (herased _))
          refine h.traced_onHub hpast fun i hi => ?_
          obtain rfl : interactor.address = i := Option.some.inj hi
          obtain ⟨before, since, hlogin⟩ := hpast.users fd interactor user hget huser
          exact ⟨fd, interactor, user, hget, rfl, huser, before, since, hlogin, by simp⟩

omit md5 in
theorem traced_onOpen {client : Client} (hnew : server.interactors[client.fd]? = none) :
    (server.onOpen client).Keeps record Traced server := by
  refine Outcome.keeps_emit fun past hpast => ⟨fun fd interactor user hget huser => ?_, ?_⟩
  · change (server.onOpen client).state.interactors[fd]? = some interactor at hget
    rw [get_onOpen_of_new hnew] at hget
    split at hget
    · obtain rfl := Option.some.inj hget
      cases huser
    · next hfd =>
      obtain ⟨before, since, hlogin⟩ := hpast.users fd interactor user hget huser
      exact ⟨before, since ++ [.opened client.fd],
        hlogin.snoc fun heq => hfd (ServerEvent.opened.inj heq)⟩
  · exact hpast.genuine.snoc fun _ _ heq => by cases heq

/-! ## Runs -/

/-- **A step of the loop** sends nothing but genuine data. -/
theorem traced_loopStep {step : LoopStep ρ} (hnew : server.MakesNew step) :
    (server.loopStep md5 step).Keeps record (fun s past => s.Orderly ∧ Traced s past) server :=
  keeps_loopStep md5 (fun _ _ _ h => ⟨h.1.congr rfl rfl, h.2.of_interactors rfl⟩)
    (fun _ _ _ reader _ hget h => ⟨h.1.withReader hget reader, h.2.withReader hget reader⟩)
    (fun _ _ _ message hget past h =>
      ⟨h.1.processMessage md5 hget message, h.1.traced_processMessage md5 hget message past h.2⟩)
    (fun configuration _ past h =>
      ⟨h.1.onInterrupt configuration, h.1.traced_onInterrupt configuration past h.2⟩)
    (fun _ fd past h => ⟨h.1.onClose fd, h.1.traced_onClose fd past h.2⟩)
    fun client haccepts past h => ⟨h.1.onOpen (hnew client haccepts).2,
      traced_onOpen (hnew client haccepts).1 past h.2⟩

theorem traced_loopSteps {steps : List (LoopStep ρ)} (h : server.Orderly ∧ Traced server past)
    (hnew : Outcome.Meets (loopStep md5) MakesNew steps server) :
    (Outcome.forEach (ServerState.loopStep md5) steps server).state.Orderly ∧
      Traced (Outcome.forEach (ServerState.loopStep md5) steps server).state
        (past ++ (Outcome.forEach (ServerState.loopStep md5) steps server).events) := by
  refine hnew.history (fun step s past (h : s.Orderly ∧ Traced s past) hnew => ?_) h
  have hkept := traced_loopStep md5 hnew past h
  rwa [foldl_record] at hkept

omit md5 in
theorem traced_new (handlers : OrdMap Fd Handler) (authenticationManager : AuthenticationManager)
    (authorizationManager : AuthorizationManager ρ) :
    (new handlers authenticationManager authorizationManager).Orderly ∧
      Traced (new handlers authenticationManager authorizationManager) [] :=
  ⟨orderly_new _ _ _, fun fd interactor user hget => by simp [new] at hget, allGenuine_nil⟩

/-- **All data are genuine**, in every run of the loop in which new interactors are made at new addresses:
a message with data that is sent to anyone names a user who has logged in on a connection, and the
packets in it are of a request to publish them on the topic which this connection has made, and
which is being handled. -/
theorem genuine_run (handlers : OrdMap Fd Handler) (authenticationManager : AuthenticationManager)
    (authorizationManager : AuthorizationManager ρ) (steps : List (LoopStep ρ))
    (hnew : Outcome.Meets (loopStep md5) MakesNew steps
      (new handlers authenticationManager authorizationManager)) :
    AllGenuine (Outcome.forEach (ServerState.loopStep md5) steps
      (new handlers authenticationManager authorizationManager)).events := by
  exact (traced_loopSteps md5 (traced_new handlers authenticationManager authorizationManager)
    hnew).2.genuine

end

/-! ## A client that hears itself -/

/-- A server on which everybody may publish and subscribe. -/
def permissive : ServerState PlainRegex :=
  new (Std.ExtTreeMap.insert ∅ 3 (.listener true)) (.new none)
    (.new none [PublisherManager.granting {0} Role.all])

/-- A client logs in, subscribes to a topic and publishes on it. -/
def publishingToItself : PollEvent :=
  received [login, subscription true,
    Message.wire (.multicastData ⟨ascii "A", [⟨0, ascii "json", [7]⟩, ⟨1, ascii "json", [8]⟩]⟩)]

/-- The server starts up, a client connects, and publishes to itself. -/
def selfPublishing : List (LoopStep PlainRegex) :=
  [.interrupt ⟨none, fun _ => .ok []⟩, .event accepted, .event publishingToItself]

theorem makesNew_selfPublishing :
    Outcome.Meets (ServerState.loopStep zeroDigest) MakesNew selfPublishing permissive := by
  refine ⟨fun client haccepts => ?_, fun _ => ⟨fun client haccepts => ?_, fun _ =>
    ⟨fun client haccepts => ?_, fun _ => trivial⟩⟩⟩
  · cases haccepts
  · have hfresh : (permissive.onInterrupt ⟨none, fun _ => .ok []⟩).state.interactors = ∅ ∧
        (permissive.onInterrupt ⟨none, fun _ => .ok []⟩).state.hub.Lacks 100 := by
      refine onInterrupt_keeps (P := fun s : ServerState PlainRegex =>
        s.interactors = ∅ ∧ s.hub.Lacks 100) ⟨rfl, Hub.lacks_new _ _⟩ fun manager => ?_
      have hqueued := (ensures_onHub { permissive with authenticationManager := manager }
        (.reload fun _ => .ok [])).state
      exact ⟨hqueued.interactors, hqueued.hub ▸ (Hub.lacks_new _ _).step (by simp [HubStep.interactor?])⟩
    have hstate : (permissive.loopStep zeroDigest (.interrupt ⟨none, fun _ => .ok []⟩)).state =
        (permissive.onInterrupt ⟨none, fun _ => .ok []⟩).state :=
      handleInterrupt_state _ _
    have hlistener : (permissive.onInterrupt ⟨none, fun _ => .ok []⟩).state.isListenerAt 3 =
        some true := by
      decide +kernel
    rw [hstate] at haccepts ⊢
    simp only [accepts, accepted, hlistener, Except.toOption, and_self, if_true, Option.mem_def,
      Option.some.injEq] at haccepts
    subst haccepts
    exact ⟨by simp [hfresh.1], by simp [hfresh.1], hfresh.2⟩
  · simp [accepts, publishingToItself, received, Except.toOption] at haccepts

theorem genuine_of_selfPublishing :
    AllGenuine (Outcome.forEach (ServerState.loopStep zeroDigest) selfPublishing permissive).events :=
  genuine_run zeroDigest (Std.ExtTreeMap.insert ∅ 3 (.listener true)) (.new none)
    (.new none [PublisherManager.granting {0} Role.all]) selfPublishing makesNew_selfPublishing

end ServerState

end SquawkBus.Server
