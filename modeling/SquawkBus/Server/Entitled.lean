import SquawkBus.Server.Provenance
import SquawkBus.Server.Reload

/-!
# Data go to those who are entitled to them

Whoever is sent data has logged in, and each packet has an entitlement that the specifications in force
grant both to the user it comes from, as a publisher on the topic, and to the user it goes to, as a
subscriber (`entitled_run`). In force are those last loaded at that moment, whatever the cache holds and
whenever the two have logged in.
-/

namespace SquawkBus.Server

open SquawkBus.Io SquawkBus.Messages SquawkBus.Serialization

/-! ## The statement -/

variable {ρ : Type} [RegexEngine ρ]

/-- The data in a message, whichever way they were published. -/
def payload? : Message → Option ForwardedMulticastData
  | .forwardedMulticastData data => some data
  | .forwardedUnicastData data => some ⟨data.user, data.host, data.topic, data.dataPackets⟩
  | _ => none

/-- The specifications let the receiver have these data of their user. -/
def EntitledTo (specs : List (AuthorizationSpec ρ)) (data : ForwardedMulticastData) (receiver : Bytes) :
    Prop :=
  ∀ packet ∈ data.dataPackets, packet.entitlement ∈ scan specs data.user data.topic Role.publisher ∧
    packet.entitlement ∈ scan specs receiver data.topic Role.subscriber

/-! ## One step of the hub -/

namespace Hub

variable {identify : Ptr → Identity} {hub : Hub ρ} {path : Option Bytes}
  {cmdLineSpecs specs : List (AuthorizationSpec ρ)}

/-- What is forwarded is what both are entitled to. -/
theorem entitled_of_forwarded {publisher i : Ptr} {request : MulticastData} {message : Message}
    {data : ForwardedMulticastData}
    (h : AuthorizationManager.GoesBy path cmdLineSpecs hub.publisherManager.authorizationManager specs)
    (hmem : message ∈ hub.publisherManager.forwardedInForce identify publisher i request)
    (hdata : payload? message = some data) : EntitledTo specs data (identify i).user := by
  unfold PublisherManager.forwardedInForce PublisherManager.forwarded at hmem
  simp only at hmem
  split at hmem
  · cases hmem
  · split at hmem
    · cases hmem
    · rw [List.mem_singleton] at hmem
      subst hmem
      obtain rfl := Option.some.inj hdata
      intro packet hpacket
      have hauthorized := (List.mem_filter.mp hpacket).2
      rw [DataPacket.isAuthorized, decide_eq_true_iff, Finset.mem_inter] at hauthorized
      unfold AuthorizationManager.inForce at hauthorized
      rwa [h.specs] at hauthorized

/-- **Data that the hub sends** are what their user and the receiver are entitled to. -/
theorem entitled_of_send {step : HubStep ρ} {i : Ptr} {message : Message} {data : ForwardedMulticastData}
    (h : AuthorizationManager.GoesBy path cmdLineSpecs hub.publisherManager.authorizationManager specs)
    (hmem : .send i message ∈ (hub.step identify step).events) (hdata : payload? message = some data) :
    EntitledTo specs data (identify i).user := by
  cases (step_calls hmem).2 i message rfl with
  | subscription | closed | listen => cases hdata
  | gone publisher topic subscriber hstale =>
      obtain rfl := Option.some.inj hdata
      exact fun packet hpacket => absurd hpacket List.not_mem_nil
  | multicast publisher request subscriber packets hpackets hnone =>
      have hsent := mem_filterMap_sentTo.mpr hmem
      change _ ∈ List.filterMap (Call.sentTo i) (Call.id publisher ::
        (hub.publisherManager.onSendMulticast identify publisher request hub.subscriptionManager).2) at hsent
      rw [List.filterMap_cons_none rfl, PublisherManager.onSendMulticast_sent] at hsent
      split at hsent
      · exact entitled_of_forwarded h hsent hdata
      · cases hsent
  | unicast publisher request receiver hreceiver packets hpackets hnone =>
      have hsent := mem_filterMap_sentTo.mpr hmem
      change _ ∈ List.filterMap (Call.sentTo i) (Call.id publisher ::
        (hub.publisherManager.onSendUnicast identify publisher request hub.interactors).2) at hsent
      rw [List.filterMap_cons_none rfl,
        PublisherManager.onSendUnicast_sent identify hub.publisherManager publisher i request hreceiver]
        at hsent
      obtain ⟨sent, hforwarded, heq⟩ := List.mem_map.mp hsent
      refine entitled_of_forwarded h hforwarded ?_
      rw [← hdata, ← heq]
      cases sent <;> rfl

end Hub

/-! ## The server -/

namespace ServerState

/-- If data are sent, their receiver has logged in at the descriptor, and is entitled to them. -/
def SentBy (specs : List (AuthorizationSpec ρ)) (past : List ServerEvent) (event : ServerEvent) : Prop :=
  ∀ fd message data, event = .sent fd message → payload? message = some data →
    ∃ receiver before since, LoginAt fd receiver before since past ∧ EntitledTo specs data receiver

/-- From `begun` on, data have been sent by the specifications. -/
abbrev SentSince (specs : List (AuthorizationSpec ρ)) (begun past : List ServerEvent) : Prop :=
  Run.Abides (fun past event => begun <+: past → SentBy specs past event) past

variable {passwordFile path : Option Bytes} {cmdLineSpecs specs : List (AuthorizationSpec ρ)}
  {found : List (Configuration ρ)} {server : ServerState ρ} {begun past : List ServerEvent}

theorem sentSince_self (specs : List (AuthorizationSpec ρ)) (begun : List ServerEvent) :
    SentSince specs begun begun := by
  intro pre event hpre hbegun
  have hlong := hpre.length_le
  have hshort := hbegun.length_le
  rw [List.length_append, List.length_singleton] at hlong
  omega

/-- An event that sends no data. -/
theorem SentSince.idle (h : SentSince specs begun past) (event : ServerEvent)
    (hevent : ∀ fd message, event = .sent fd message → payload? message = none) :
    SentSince specs begun (record past event) := by
  refine h.snoc fun _ fd message data heq hdata => ?_
  rw [hevent fd message heq] at hdata
  cases hdata

/-- The hub calls nobody who has not logged in. -/
theorem Orderly.isSome_of_call (h : server.Orderly) {step : HubStep ρ} (hby : server.ByUser step)
    {call : Call} (hcall : call ∈ (server.hub.step server.identify step).events) {fd : Fd}
    {interactor : Interactor} (hget : server.interactors[fd]? = some interactor)
    (haddress : interactor.address = call.interactor) : interactor.user.isSome := by
  by_contra hnone
  have hnone : interactor.user = none := by simpa using hnone
  rcases (Hub.step_calls hcall).1 with hself | hknows
  · exact hby fd interactor hget hnone (haddress ▸ hself)
  · exact (h.admitted.strangers fd interactor hget hnone).not_knows (haddress ▸ hknows)

/-- **Data sent by the hub** go to users who are entitled to them. -/
theorem Orderly.sentSince_onHub (h : server.Orderly) {step : HubStep ρ} (hby : server.ByUser step)
    (hgoes : AuthorizationManager.GoesBy path cmdLineSpecs
      server.hub.publisherManager.authorizationManager specs)
    (htraced : Traced server past) (hsent : SentSince specs begun past) :
    SentSince specs begun ((server.onHub step).events.foldl record past) := by
  -- The interactors are those there were, and nobody logs in or leaves meanwhile.
  let logged (past : List ServerEvent) : Prop := ∀ (fd : Fd) interactor user,
    server.interactors[fd]? = some interactor → interactor.user = some user →
      ∃ before since, LoginAt fd user before since past
  have hkeeps : (server.onHub step).Keeps record
      (fun _ past => logged past ∧ SentSince specs begun past) server := by
    refine ServerState.keeps_onHub (fun _ _ _ hs => hs) (fun _ hs => hs)
      fun i message interactor hcall hat _ past hs => ?_
    refine ⟨fun fd interactor' user hget huser => ?_, hs.2.snoc fun _ fd message' data heq hdata => ?_⟩
    · obtain ⟨before, since, hlogin⟩ := hs.1 fd interactor' user hget huser
      exact ⟨before, since ++ [_], hlogin.snoc (by simp)⟩
    · obtain ⟨rfl, rfl⟩ := ServerEvent.sent.inj heq
      obtain ⟨haddress, fd', hget⟩ := get_of_interactorAt hat
      obtain rfl := h.own fd' interactor hget
      obtain ⟨user, huser⟩ :=
        Option.isSome_iff_exists.mp (h.isSome_of_call hby hcall hget haddress)
      obtain ⟨before, since, hlogin⟩ := hs.1 interactor.fd interactor user hget huser
      refine ⟨user, before, since, hlogin, ?_⟩
      have hentitled := Hub.entitled_of_send hgoes hcall hdata
      rwa [← haddress, h.identify hget huser] at hentitled
  exact (hkeeps past ⟨htraced.users, hsent⟩).2

/-! ## The invariant -/

section

variable (md5 : Bytes → Bytes)

/-- **What the sending of data rests on**: it is known who has logged in, and what is in force. -/
structure Entrusted (passwordFile path : Option Bytes) (cmdLineSpecs : List (AuthorizationSpec ρ))
    (found : List (Configuration ρ)) (begun : List ServerEvent) (server : ServerState ρ)
    (past : List ServerEvent) : Prop where
  orderly : server.Orderly
  traced : Traced server past
  goesBy : GoesBy passwordFile path cmdLineSpecs found server
  sent : SentSince (specsInForce passwordFile path cmdLineSpecs found) begun past

theorem Entrusted.of_interactors (h : Entrusted passwordFile path cmdLineSpecs found begun server past)
    {server' : ServerState ρ} (hinteractors : server'.interactors = server.interactors)
    (hpasswords : server'.authenticationManager = server.authenticationManager)
    (hhub : server'.hub = server.hub) :
    Entrusted passwordFile path cmdLineSpecs found begun server' past :=
  ⟨h.orderly.congr hinteractors hhub, h.traced.of_interactors hinteractors,
    h.goesBy.congr hpasswords hhub, h.sent⟩

theorem keeps_entrusted_processMessage {fd : Fd} {interactor : Interactor}
    (hget : server.interactors[fd]? = some interactor) (message : Message) :
    (server.processMessage md5 fd interactor message).Keeps record
      (Entrusted passwordFile path cmdLineSpecs found begun) server := by
  intro past h
  have hgone := keeps_goneBy_processMessage md5 server fd interactor message [] ⟨h.goesBy, Run.abides_nil _⟩
  refine ⟨h.orderly.processMessage md5 hget message,
    h.orderly.traced_processMessage md5 hget message past h.traced, hgone.goesBy, ?_⟩
  have hprocessed : SentSince (specsInForce passwordFile path cmdLineSpecs found) begun
      (record past (.processed fd message)) := h.sent.idle _ (by simp)
  cases huser : interactor.user with
  | some user =>
      have hsome : interactor.user.isSome := by simp [huser]
      rw [processMessage_of_user md5 hsome, Outcome.andThen_of_ok rfl]
      simp only [Outcome.emit_state, Outcome.emit_events, List.cons_append, List.nil_append,
        List.foldl_cons]
      refine h.orderly.sentSince_onHub (h.orderly.admitted.byUser hget hsome rfl) h.goesBy.authorizations
        ((h.traced.idle (.processed fd message) trivial).idle (.handled fd message) trivial)
        (hprocessed.idle _ (by simp))
  | none =>
      rw [processMessage_of_none md5 huser, Outcome.andThen_of_ok rfl]
      cases message with
      | authenticationRequest request =>
          cases hanswer : server.authenticationManager.authenticate md5 request with
          | error e =>
              rw [Outcome.emit_state, authenticate_error md5 hanswer]
              exact hprocessed
          | ok answer =>
              cases answer with
              | some user =>
                  rw [Outcome.emit_state, authenticate_some md5 hanswer]
                  exact (hprocessed.idle _ (by simp)).idle _ (by simp [payload?])
              | none =>
                  rw [Outcome.emit_state, authenticate_none md5 hanswer]
                  exact (hprocessed.idle _ (by simp)).idle _ (by simp [payload?])
      | _ =>
          rw [Outcome.emit_state, authenticate_other md5 (by simp)]
          exact hprocessed.idle _ (by simp)

omit md5 in
theorem keeps_entrusted_onClose (server : ServerState ρ) (fd : Fd) :
    (server.onClose fd).Keeps record (Entrusted passwordFile path cmdLineSpecs found begun) server := by
  intro past h
  refine ⟨h.orderly.onClose fd, h.orderly.traced_onClose fd past h.traced, h.goesBy.onClose fd, ?_⟩
  cases hget : server.interactors[fd]? with
  | none =>
      unfold ServerState.onClose
      rw [hget]
      exact h.sent
  | some interactor =>
      cases huser : interactor.user with
      | none =>
          rw [h.orderly.admitted.onClose_of_stranger hget huser]
          exact h.sent.idle (.closed fd) (by simp)
      | some user =>
          have hsome : interactor.user.isSome := by simp [huser]
          have hsent : SentSince (specsInForce passwordFile path cmdLineSpecs found) begun
              ((server.onHub (.disconnected interactor.address)).events.foldl record past) :=
            h.orderly.sentSince_onHub (h.orderly.admitted.byUser hget hsome rfl) h.goesBy.authorizations
              h.traced h.sent
          unfold ServerState.onClose
          rw [hget]
          simp only
          cases hfault : (server.onHub (.disconnected interactor.address)).fault with
          | some fault =>
              rw [Outcome.andThen_of_fault hfault]
              exact hsent
          | none =>
              rw [Outcome.andThen_of_ok hfault, List.foldl_append]
              exact hsent.idle (.closed fd) (by simp)

/-- **A step of the loop between the interrupts.** -/
theorem keeps_entrusted_loopStep {step : LoopStep ρ} (hnew : server.MakesNew step)
    (hstep : ∀ configuration, step ≠ .interrupt configuration) :
    (server.loopStep md5 step).Keeps record (Entrusted passwordFile path cmdLineSpecs found begun)
      server := by
  refine keeps_loopStep md5 (fun _ _ _ h => h.of_interactors rfl rfl rfl)
    (fun s fd interactor reader past hget h => ?_)
    (fun _ _ _ message hget => keeps_entrusted_processMessage md5 hget message)
    (fun configuration heq => absurd heq (hstep configuration))
    (fun s fd => keeps_entrusted_onClose s fd) fun client haccepts past h => ?_
  · exact ⟨h.orderly.withReader hget reader, h.traced.withReader hget reader, h.goesBy.congr rfl rfl,
      h.sent⟩
  · exact ⟨h.orderly.onOpen (hnew client haccepts).2, traced_onOpen (hnew client haccepts).1 past h.traced,
      h.goesBy.congr rfl rfl, h.sent.idle _ (by simp)⟩

/-! ## Runs -/

/-- **Data go to those who are entitled to them**, in every run of a server in which new interactors are
made at new addresses: whoever is sent data at a step of the loop has logged in, and may have all the
packets by the authorizations in force, which also let their user publish them. -/
theorem entitled_run (handlers : OrdMap Fd Handler) (passwordFile path : Option Bytes)
    (cmdLineSpecs : List (AuthorizationSpec ρ)) (startup : Configuration ρ) (steps : List (LoopStep ρ))
    (hreturns : ((new handlers (.new passwordFile) (.new path cmdLineSpecs)).startUp md5 startup
      steps).fault = none) (step : LoopStep ρ)
    (hnew : Outcome.Meets (loopStep md5) MakesNew (steps ++ [step])
      ((new handlers (.new passwordFile) (.new path cmdLineSpecs)).onInterrupt startup).state) :
    let run := (new handlers (.new passwordFile) (.new path cmdLineSpecs)).startUp md5 startup steps
    Run.Abides (fun since event => SentBy
        (specsInForce passwordFile path cmdLineSpecs (startup :: interrupts steps))
        (run.events ++ since) event)
      (run.state.loopStep md5 step).events := by
  intro run
  have hgoes : GoesBy passwordFile path cmdLineSpecs (startup :: interrupts steps) run.state :=
    goesBy_startUp md5 hreturns
  obtain ⟨hstart, hsteps⟩ := Outcome.returns_andThen hreturns
  obtain ⟨hbefore, hlast⟩ := Outcome.meets_append.mp hnew
  have hbegun := traced_new handlers (.new passwordFile) (.new path cmdLineSpecs)
  have hrun : run = _ := Outcome.andThen_of_ok hstart _
  have htraced : run.state.Orderly ∧ Traced run.state run.events := by
    rw [hrun]
    have hstarted := hbegun.1.traced_onInterrupt startup [] hbegun.2
    rw [foldl_record, List.nil_append] at hstarted
    exact traced_loopSteps md5 ⟨hbegun.1.onInterrupt startup, hstarted⟩ hbefore
  have hmakes : run.state.MakesNew step := by
    rw [hrun]
    exact (hlast hsteps).1
  by_cases hstep : ∃ configuration, step = .interrupt configuration
  · obtain ⟨configuration, rfl⟩ := hstep
    rw [ServerState.loopStep, handleInterrupt_events, onInterrupt_events]
    exact Run.abides_nil _
  · have hkept := keeps_entrusted_loopStep md5 hmakes (not_exists.mp hstep) run.events
      ⟨htraced.1, htraced.2, hgoes, sentSince_self _ _⟩
    rw [foldl_record] at hkept
    intro since event hpre
    refine hkept.sent (run.events ++ since) event ?_ (List.prefix_append _ _)
    rw [List.append_assoc]
    exact (List.prefix_append_right_inj _).mpr hpre

end

/-- The client that publishes to itself is sent its data, since everybody may do everything. -/
theorem entitled_of_selfPublishing :
    let run := (new (Std.ExtTreeMap.insert ∅ 3 (.listener true)) (.new none)
      (.new none [PublisherManager.granting {0} Role.all])).startUp zeroDigest ⟨none, fun _ => .ok []⟩
        [.event accepted]
    Run.Abides (fun since event => SentBy
        (specsInForce none none [PublisherManager.granting {0} Role.all]
          (⟨none, fun _ => .ok []⟩ :: interrupts [LoopStep.event accepted]))
        (run.events ++ since) event)
      (run.state.loopStep zeroDigest (.event publishingToItself)).events := by
  refine entitled_run zeroDigest _ _ _ _ _ _ (by decide +kernel) _ ?_
  have hnew := makesNew_selfPublishing.2 (by decide +kernel)
  rwa [ServerState.loopStep, handleInterrupt_state] at hnew

end ServerState

end SquawkBus.Server
