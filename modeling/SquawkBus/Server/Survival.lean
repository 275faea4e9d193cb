import SquawkBus.Server.EventLoop
import SquawkBus.Server.Healthy

/-!
# What the loop survives

An exception ends the read it happens in and nothing else, if it derives from `std::exception`.
The loop is taken down by what is not: the literal thrown for an unknown message type, and the
undefined behaviour behind a truncated frame, a first message that is no authentication request,
and an interactor that the hub still calls when it is gone; by an `accept` that fails outside of any
handler; and by the `SIGPIPE` of a write to a client that has gone. `Harmless` excludes these, and
lengths that an `int` cannot count; then every step returns, and leaves open what it is not about.
-/

namespace SquawkBus.Server

open SquawkBus.Io SquawkBus.Messages SquawkBus.Serialization

variable {ρ : Type} [RegexEngine ρ]

/-- The descriptor a step is about. -/
def LoopStep.fd? : LoopStep ρ → Option Fd
  | .event e => some e.fd
  | _ => none

namespace ServerState

variable {server server' : ServerState ρ} {names frames : Nat} (md5 : Bytes → Bytes)

/-! ## One step of the loop -/

/-- A connection as `accept` and `new` give it: its descriptor is not in use, nor is the address of
its interactor. -/
structure NewClient (server : ServerState ρ) (client : Client) : Prop where
  fd : server.isOpenAt client.fd ≠ some true
  address : ∀ entry ∈ server.interactors.toList, entry.2.address ≠ client.address
  host : client.host.length ≤ 2 ^ 10
  id : client.id.length ≤ 2 ^ 10

/-- What the loop can be given: an event of a descriptor that is polled, and connections that are
new. -/
def Offers (server : ServerState ρ) : LoopStep ρ → Prop
  | .event event => event.fd ∈ server.handlers ∧
      ∀ client ∈ event.accept.toOption, server.NewClient client
  | _ => True

/-- A step that does not meet one of the defects: `accept` succeeds, what is read from a connection is
acceptable, and no write to it raises `SIGPIPE`, in a read or in a write. -/
def Harmless (names frames : Nat) (server : ServerState ρ) : LoopStep ρ → Prop
  | .event event =>
      match server.handlers[event.fd]? with
      | some (.listener _) => event.readable → event.accept.toOption.isSome
      | some (.socket handler) =>
          (event.readable →
            Outcome.Meets (receive md5 event.fd) (Acceptable names frames event.fd)
              (handler.read event.reads).2
              (server.withHandler event.fd (.socket (handler.read event.reads).1)) ∧
            ReadResult.sigpipe ∉ event.reads) ∧
          (event.writable → WriteResult.sigpipe ∉ event.writes ∧ event.pending ≠ some .sigpipe)
      | none => True
  | _ => True

instance (server : ServerState ρ) (client : Client) : Decidable (server.NewClient client) :=
  decidable_of_iff (server.isOpenAt client.fd ≠ some true ∧
      (∀ entry ∈ server.interactors.toList, entry.2.address ≠ client.address) ∧
      client.host.length ≤ 2 ^ 10 ∧ client.id.length ≤ 2 ^ 10)
    ⟨fun h => ⟨h.1, h.2.1, h.2.2.1, h.2.2.2⟩, fun h => ⟨h.fd, h.address, h.host, h.id⟩⟩

instance (server : ServerState ρ) : (step : LoopStep ρ) → Decidable (server.Offers step)
  | .event event => inferInstanceAs (Decidable (event.fd ∈ server.handlers ∧
      ∀ client ∈ event.accept.toOption, server.NewClient client))
  | .interrupt _ | .sweep => isTrue trivial

instance (server : ServerState ρ) :
    (step : LoopStep ρ) → Decidable (server.Harmless md5 names frames step)
  | .event event =>
      match h : server.handlers[event.fd]? with
      | some (.listener _) =>
          decidable_of_iff (event.readable → event.accept.toOption.isSome)
            (by simp only [Harmless, h])
      | some (.socket handler) =>
          decidable_of_iff ((event.readable →
              Outcome.Meets (receive md5 event.fd) (Acceptable names frames event.fd)
                (handler.read event.reads).2
                (server.withHandler event.fd (.socket (handler.read event.reads).1)) ∧
              ReadResult.sigpipe ∉ event.reads) ∧
              (event.writable → WriteResult.sigpipe ∉ event.writes ∧ event.pending ≠ some .sigpipe))
            (by simp only [Harmless, h])
      | none => isTrue (by simp only [Harmless, h])
  | .interrupt _ | .sweep => isTrue trivial

/-! ### The poller -/

theorem continues_catchStdException {outcome : ServerOutcome ρ}
    (h : Survives names frames outcome) : Continues names frames (catchStdException outcome) := by
  unfold catchStdException
  split
  · next e he =>
    have hcaught : e.isStdException := h.fault _ he
    refine ⟨h.state, fun _ _ => trivial, fun fault hfault => ?_⟩
    rw [if_pos hcaught] at hfault
    cases hfault
  · next hnot =>
    refine ⟨h.state, fun _ _ => trivial, fun fault hfault => ?_⟩
    have hcaught := h.fault fault hfault
    cases fault with
    | thrown e => exact hnot e hfault
    | terminated => exact hcaught
    | undefined => exact hcaught
    | killed => exact hcaught

theorem Healthy.handleRead (h : server.Healthy names frames)
    (hsize : names + frames + 2 ^ 12 < 2 ^ 31) {fd : Fd} {handler : SocketHandler}
    {results : List ReadResult}
    (hbufs : Outcome.Meets (ServerState.receive md5 fd) (Acceptable names frames fd)
      (handler.read results).2 (server.withHandler fd (.socket (handler.read results).1)))
    (hsignals : ReadResult.sigpipe ∉ results) :
    Continues names frames (server.handleRead md5 fd handler results).1 := by
  have hread : (server.withHandler fd (.socket (handler.read results).1)).Healthy names frames :=
    h.congr rfl rfl
  rw [handleRead_eq, handler.killedByRead_eq_false hsignals, passOn_of_lives]
  exact continues_catchStdException (hread.onRead md5 hsize hbufs)

omit md5 in
theorem Healthy.handleWrite (h : server.Healthy names frames) (fd : Fd)
    {results : List WriteResult} {pending : Option WriteResult}
    (hsignals : WriteResult.sigpipe ∉ results ∧ pending ≠ some .sigpipe) :
    Continues names frames (server.handleWrite fd results pending) := by
  unfold ServerState.handleWrite
  split
  · next handler _ =>
    have hwritten : (server.withHandler fd
        (.socket (handler.write results pending).1)).Healthy names frames := h.congr rfl rfl
    refine continues_catchStdException ?_
    split
    · exact Outcome.ensures_done hwritten
    · next fault hfault =>
      refine Outcome.ensures_fail hwritten ?_
      have hends := SocketHandler.writeEnds_of_write hfault
      cases fault with
      | thrown e => exact hends
      | killed => exact hends.elim hsignals.1 hsignals.2
      | terminated => exact hends
      | undefined => exact hends
  · exact Outcome.ensures_done h

omit md5 in
theorem Healthy.addHandler (h : server.Healthy names frames) {client : Client}
    (hnew : server.NewClient client) : (server.addHandler client).state.Healthy names frames := by
  have haddress : ∀ (fd : Fd) (interactor : Interactor),
      server.interactors[fd]? = some interactor → interactor.address ≠ client.address :=
    fun fd interactor hget => hnew.address (fd, interactor)
      (Std.ExtTreeMap.mem_toList_iff_getElem?_eq_some.mpr hget)
  refine ⟨fun fd fd' i i' hget hget' heq => ?_, fun fd interactor hget => ?_,
    h.hub.mono fun i hi => ?_⟩
  · rcases get_of_onOpen hget with ⟨rfl, -, rfl⟩ | hold <;>
      rcases get_of_onOpen hget' with ⟨rfl, -, rfl⟩ | hold'
    · rfl
    · exact absurd heq.symm (haddress fd' i' hold')
    · exact absurd heq (haddress fd i hold)
    · exact h.addresses fd fd' i i' hold hold' heq
  · rcases get_of_onOpen hget with ⟨-, -, rfl⟩ | hold
    · exact ⟨by simp [FrameReader.LenFits, FrameReader.empty], rfl, by simp, hnew.host, hnew.id⟩
    · exact h.fits fd interactor hold
  · obtain ⟨fd, interactor, hget, hrest⟩ := hi
    exact ⟨fd, interactor, get_onOpen_of_get hget, hrest⟩

/-! ### Reloading -/

omit md5 in
/-- The authorizations are loaded, or the exception is left to the handler. -/
theorem Healthy.onReload (h : server.Healthy names frames)
    (file : Bytes → Except Exn (List (AuthorizationSpec ρ))) :
    (server.onHub (.reload file)).Ensures (Healthy names frames) (fun _ => True)
      fun fault => ∃ e, fault = .thrown e := by
  have hcalls : ∀ call ∈ (server.hub.step server.identify (.reload file)).events,
      server.Safe call := by
    intro call hcall
    have hnone : (server.hub.reload file).events = [] := by
      unfold Hub.reload
      split <;> rfl
    rw [Hub.step, hnone] at hcall
    cases hcall
  have hhub : Healthy names frames
      { server with hub := (server.hub.step server.identify (.reload file)).state } :=
    ⟨h.addresses, h.fits, h.hub.reload server.identify file⟩
  refine (ensures_onHub_of_safe hcalls).mono (fun s hs => hhub.congr hs.interactors hs.hub)
    (fun _ h => h) ?_
  rintro fault ⟨e, rfl, -⟩
  exact ⟨e, rfl⟩

omit md5 in
theorem Healthy.handleInterrupt (h : server.Healthy names frames)
    (configuration : Configuration ρ) :
    Continues names frames (server.handleInterrupt configuration) := by
  have hthrown : (server.onInterrupt configuration).Ensures (Healthy names frames)
      (fun _ => True) fun fault => ∃ e, fault = .thrown e := by
    unfold onInterrupt
    split
    · exact Outcome.ensures_fail h ⟨_, rfl⟩
    · next manager _ =>
      have hloaded : Healthy names frames { server with authenticationManager := manager } :=
        h.congr rfl rfl
      exact hloaded.onReload configuration.authorizations
  unfold ServerState.handleInterrupt
  simp only
  split
  · exact ⟨hthrown.state, fun _ _ => trivial, by simp⟩
  · next hnot =>
    refine ⟨hthrown.state, fun _ _ => trivial, fun fault hfault => ?_⟩
    obtain ⟨e, rfl⟩ := hthrown.fault fault hfault
    exact hnot e hfault

/-! ### Leaving -/

omit md5 in
/-- The departure of an interactor calls members, or the interactor itself, for its name and id. -/
theorem Healthy.safe_disconnected (h : server.Healthy names frames)
    (hsize : names + frames + 2 ^ 12 < 2 ^ 31) {fd : Fd} {interactor : Interactor}
    (hget : server.interactors[fd]? = some interactor) :
    ∀ call ∈ (server.hub.step server.identify (.disconnected interactor.address)).events,
      server.Safe call := by
  by_cases hmember : server.Member interactor.address
  · exact h.safe hsize (fun i hi => Option.some.inj hi ▸ hmember) (by simp)
  · rw [h.hub.calls_of_stranger hmember]
    intro call hcall
    simp only [List.mem_cons, List.not_mem_nil, or_false] at hcall
    rcases hcall with rfl | rfl <;> exact ⟨interactor, h.interactorAt hget, by simp, by simp⟩

omit md5 in
/-- **An interactor leaves a healthy server behind**: the hub has forgotten it. -/
theorem Healthy.onClose (h : server.Healthy names frames)
    (hsize : names + frames + 2 ^ 12 < 2 ^ 31) (fd : Fd) :
    Continues names frames (server.onClose fd) := by
  unfold ServerState.onClose
  split
  · exact Outcome.ensures_done h
  · next interactor hget =>
    have hsafe := h.safe_disconnected hsize hget
    have hhub := ensures_onHub_of_safe hsafe
    have hreturns : (server.onHub (.disconnected interactor.address)).fault = none :=
      returns_onHub_of_safe hsafe rfl
    rw [Outcome.andThen_of_ok hreturns]
    refine ⟨?_, fun _ _ => trivial, by simp⟩
    have hentry : ∀ (fd' : Fd) (i : Interactor),
        ((server.onHub (.disconnected interactor.address)).state.interactors.erase fd)[fd']? =
          some i ↔ fd ≠ fd' ∧ server.interactors[fd']? = some i := by
      intro fd' i
      rw [hhub.state.interactors, OrdMap.get_erase]
      by_cases hfd : fd = fd' <;> simp [hfd]
    refine ⟨fun fd₁ fd₂ i₁ i₂ hget₁ hget₂ heq => ?_, fun fd₁ i₁ hget₁ => ?_, ?_⟩
    · exact h.addresses fd₁ fd₂ i₁ i₂ ((hentry fd₁ i₁).mp hget₁).2 ((hentry fd₂ i₂).mp hget₂).2 heq
    · exact h.fits fd₁ i₁ ((hentry fd₁ i₁).mp hget₁).2
    · show Hub.Consistent (server.onHub (.disconnected interactor.address)).state.hub _ frames
      rw [hhub.state.hub]
      refine (h.hub.disconnected server.identify interactor.address).mono fun i hi => ?_
      obtain ⟨hne, fd', i', hget', haddress, huser⟩ := hi
      refine ⟨fd', i', (hentry fd' i').mpr ⟨?_, hget'⟩, haddress, huser⟩
      -- The member that is left is not the one that has gone.
      rintro rfl
      obtain rfl := Option.some.inj (hget.symm.trans hget')
      exact hne haddress

omit md5 in
/-- Closing a connection opens and closes no handler. -/
theorem isOpenAt_onClose (server : ServerState ρ) (fd fd' : Fd) :
    (server.onClose fd).state.isOpenAt fd' = server.isOpenAt fd' :=
  onClose_keeps (P := fun s => s.isOpenAt fd' = server.isOpenAt fd') rfl
    (fun interactor _ =>
      (server.ensures_onHub (.disconnected interactor.address)).state.isOpenAt fd')
    fun _ hs => hs

omit md5 in
theorem isOpenAt_removeClosedHandler (server : ServerState ρ) {fd fd' : Fd} (hne : fd' ≠ fd) :
    (server.removeClosedHandler fd).state.isOpenAt fd' = server.isOpenAt fd' := by
  have herased : isOpenAt { server with handlers := server.handlers.erase fd } fd' =
      server.isOpenAt fd' := by
    unfold isOpenAt
    rw [OrdMap.get_erase, if_neg (Ne.symm hne)]
  exact removeClosedHandler_keeps (P := fun s => s.isOpenAt fd' = server.isOpenAt fd')
    (fun _ => rfl) herased fun s hs => (s.isOpenAt_onClose fd fd').trans hs

omit md5 in
theorem mem_findClosedHandlerFds {fd : Fd} :
    fd ∈ server.findClosedHandlerFds ↔ server.isOpenAt fd = some false := by
  simp only [findClosedHandlerFds, List.mem_map, List.mem_filter, Prod.exists,
    Std.ExtTreeMap.mem_toList_iff_getElem?_eq_some, isOpenAt, Option.map_eq_some_iff]
  constructor
  · rintro ⟨fd', handler, ⟨hget, hclosed⟩, rfl⟩
    exact ⟨handler, hget, by simpa using hclosed⟩
  · rintro ⟨handler, hget, hclosed⟩
    exact ⟨fd, handler, ⟨hget, by simpa using hclosed⟩, rfl⟩

omit md5 in
theorem nodup_findClosedHandlerFds (server : ServerState ρ) :
    server.findClosedHandlerFds.Nodup := by
  have hkeys : (server.handlers.toList.map (·.1)).Nodup := by
    rw [Std.ExtTreeMap.map_fst_toList_eq_keys]
    exact Std.ExtTreeMap.nodup_keys
  exact hkeys.sublist (List.filter_sublist.map _)

omit md5 in
/-- The loop over the closed handlers, each of which is still registered when its turn comes. -/
theorem Healthy.removeClosedHandlers (h : server.Healthy names frames)
    (hsize : names + frames + 2 ^ 12 < 2 ^ 31) :
    Continues names frames server.removeClosedHandlers := by
  have hclosed : ∀ fd ∈ server.findClosedHandlerFds, server.isOpenAt fd = some false :=
    fun fd hfd => mem_findClosedHandlerFds.mp hfd
  have hnodup := server.nodup_findClosedHandlerFds
  unfold ServerState.removeClosedHandlers
  generalize server.findClosedHandlerFds = fds at hclosed hnodup
  induction fds generalizing server with
  | nil => exact Outcome.ensures_done h
  | cons fd fds ih =>
      obtain ⟨hfd, hnodup⟩ := List.nodup_cons.mp hnodup
      have hround : Continues names frames (server.removeClosedHandler fd) := by
        unfold removeClosedHandler
        split
        · next hnone =>
          have hregistered := hclosed fd (by simp)
          simp [isOpenAt, hnone] at hregistered
        · have herased : Healthy names frames { server with handlers := server.handlers.erase fd } :=
            h.congr rfl rfl
          simp only
          split
          · exact Outcome.ensures_done herased
          · exact herased.onClose hsize fd
      rw [Outcome.forEach_cons]
      refine hround.andThen fun _ hs => ih hs (fun fd' hfd' => ?_) hnodup
      have hne : fd' ≠ fd := by
        rintro rfl
        exact hfd hfd'
      rw [isOpenAt_removeClosedHandler server hne]
      exact hclosed fd' (List.mem_cons_of_mem fd hfd')

/-! ### Events -/

theorem Healthy.handleEvent (h : server.Healthy names frames)
    (hsize : names + frames + 2 ^ 12 < 2 ^ 31) {event : PollEvent}
    (hoffers : server.Offers (.event event))
    (hharmless : server.Harmless md5 names frames (.event event)) :
    Continues names frames (server.handleEvent md5 event) := by
  obtain ⟨hmem, hclient⟩ := hoffers
  obtain ⟨handler, hhandler⟩ := OrdMap.mem_iff_get.mp hmem
  unfold ServerState.handleEvent
  simp only [Harmless, hhandler] at hharmless
  rw [hhandler]
  cases handler with
  | listener isOpen =>
      simp only at hharmless ⊢
      split
      · next hreadable =>
        obtain ⟨client, haccept⟩ := Option.isSome_iff_exists.mp (hharmless hreadable)
        have hnew := hclient client haccept
        cases hresult : event.accept with
        | error e => rw [hresult] at haccept; cases haccept
        | ok client' =>
            rw [hresult] at haccept
            obtain rfl := Option.some.inj haccept
            exact ⟨h.addHandler hnew, fun _ _ => trivial, by simp [ServerState.addHandler, onOpen]⟩
      · exact Outcome.ensures_done h
  | socket handler =>
      simp only at hharmless ⊢
      cases hreadable : event.readable with
      | true =>
          simp only [if_true]
          obtain ⟨hbufs, hsignals⟩ := hharmless.1 hreadable
          refine (h.handleRead md5 hsize hbufs hsignals).andThen fun _ hs => ?_
          split
          · next hgoes => exact hs.handleWrite event.fd (hharmless.2 (Bool.and_eq_true_iff.mp hgoes).2)
          · exact Outcome.ensures_done hs
      | false =>
          simp only [Bool.false_eq_true, if_false, Outcome.done_andThen]
          split
          · next hgoes => exact h.handleWrite event.fd (hharmless.2 (Bool.and_eq_true_iff.mp hgoes).2)
          · exact Outcome.ensures_done h

/-- **A harmless step returns, and leaves the server healthy.** -/
theorem Healthy.loopStep (h : server.Healthy names frames)
    (hsize : names + frames + 2 ^ 12 < 2 ^ 31) {step : LoopStep ρ} (hoffers : server.Offers step)
    (hharmless : server.Harmless md5 names frames step) :
    Continues names frames (server.loopStep md5 step) := by
  cases step with
  | interrupt configuration => exact h.handleInterrupt configuration
  | event event => exact h.handleEvent md5 hsize hoffers hharmless
  | sweep => exact h.removeClosedHandlers hsize

/-! ## The other connections -/

omit md5 in
theorem isOpenAt_handleInterrupt (server : ServerState ρ) (configuration : Configuration ρ)
    (fd : Fd) : (server.handleInterrupt configuration).state.isOpenAt fd = server.isOpenAt fd := by
  rw [handleInterrupt_state]
  exact onInterrupt_keeps (P := fun s => s.isOpenAt fd = server.isOpenAt fd) rfl
    fun manager => (ensures_onHub _ _).state.isOpenAt fd

theorem isOpenAt_handleRead (server : ServerState ρ) {fd fd' : Fd} (hne : fd' ≠ fd)
    (handler : SocketHandler) (results : List ReadResult) :
    (server.handleRead md5 fd handler results).1.state.isOpenAt fd' = server.isOpenAt fd' := by
  have hread := server.isOpenAt_withHandler fd fd' (.socket (handler.read results).1)
  rw [if_neg (Ne.symm hne)] at hread
  rw [handleRead_eq, catchStdException_state]
  exact passOn_keeps md5 (P := fun s => s.isOpenAt fd' = server.isOpenAt fd') hread
    (((serves_onRead md5 _ fd _).state.isOpenAt fd' hne).trans hread)

omit md5 in
theorem isOpenAt_handleWrite (server : ServerState ρ) {fd fd' : Fd} (hne : fd' ≠ fd)
    (results : List WriteResult) (pending : Option WriteResult) :
    (server.handleWrite fd results pending).state.isOpenAt fd' = server.isOpenAt fd' := by
  refine handleWrite_keeps (P := fun s => s.isOpenAt fd' = server.isOpenAt fd') rfl
    fun handler _ => ?_
  have hwritten := server.isOpenAt_withHandler fd fd' (.socket (handler.write results pending).1)
  rwa [if_neg (Ne.symm hne)] at hwritten

theorem isOpenAt_handleEvent {event : PollEvent} (hoffers : server.Offers (.event event)) {fd : Fd}
    (hne : fd ≠ event.fd) (hopen : server.isOpenAt fd = some true) :
    (server.handleEvent md5 event).state.isOpenAt fd = some true := by
  refine handleEvent_keeps md5 (P := fun s => s.isOpenAt fd = some true) hopen
    (fun _ client _ haccept => ?_) (fun handler _ => ?_) fun s hs => ?_
  · have hnew := hoffers.2 client (by rw [haccept]; rfl)
    have hfd : client.fd ≠ fd := by
      rintro rfl
      exact hnew.fd hopen
    show (server.withHandler client.fd (.socket .new)).isOpenAt fd = some true
    rw [isOpenAt_withHandler, if_neg hfd]
    exact hopen
  · rw [isOpenAt_handleRead md5 server hne]
    exact hopen
  · rw [isOpenAt_handleWrite _ hne]
    exact hs

omit md5 in
theorem isOpenAt_removeClosedHandlers {fd : Fd} (hopen : server.isOpenAt fd = some true) :
    server.removeClosedHandlers.state.isOpenAt fd = some true := by
  refine (Outcome.Ensures.forEach (P := fun s : ServerState ρ => s.isOpenAt fd = some true)
    (Q := fun _ => True) (F := fun _ => True) (fun fd' hfd' s hs => ?_) hopen).state
  refine ⟨?_, fun _ _ => trivial, fun _ _ => trivial⟩
  have hne : fd ≠ fd' := by
    rintro rfl
    rw [mem_findClosedHandlerFds.mp hfd'] at hopen
    cases hopen
  rw [isOpenAt_removeClosedHandler s hne]
  exact hs

/-- **A step closes no connection but the one it is about.** -/
theorem isOpenAt_loopStep {step : LoopStep ρ} (hoffers : server.Offers step) {fd : Fd}
    (hne : step.fd? ≠ some fd) (hopen : server.isOpenAt fd = some true) :
    (server.loopStep md5 step).state.isOpenAt fd = some true := by
  cases step with
  | interrupt configuration => exact (isOpenAt_handleInterrupt server configuration fd).trans hopen
  | event event => exact isOpenAt_handleEvent md5 hoffers (fun heq => hne (congrArg some heq.symm)) hopen
  | sweep => exact isOpenAt_removeClosedHandlers hopen

/-! ## The loop -/

/-- **The server stays up**: the loop comes to the end of its turns, and no step of it closes a
connection that it is not about. -/
structure StaysUp (server : ServerState ρ) (turns : List (Turn ρ)) : Prop where
  returns : (server.eventLoop md5 turns).fault = none
  others : ∀ pre step, pre ++ [step] <+: turns.flatMap Turn.steps → ∀ fd, step.fd? ≠ some fd →
    (Outcome.forEach (loopStep md5) pre server).state.isOpenAt fd = some true →
      (Outcome.forEach (loopStep md5) (pre ++ [step]) server).state.isOpenAt fd = some true

/-- **No connection takes the server down**, along every run in which no step meets one of the
defects. -/
theorem staysUp_eventLoop (handlers : OrdMap Fd Handler)
    (authenticationManager : AuthenticationManager)
    (authorizationManager : AuthorizationManager ρ) (names frames : Nat)
    (hsize : names + frames + 2 ^ 12 < 2 ^ 31) (turns : List (Turn ρ))
    (h : Outcome.Meets (loopStep md5)
      (fun server step => server.Offers step ∧ server.Harmless md5 names frames step)
      (turns.flatMap Turn.steps) (new handlers authenticationManager authorizationManager)) :
    (new handlers authenticationManager authorizationManager).StaysUp md5 turns := by
  have hstep : ∀ (step : LoopStep ρ) (s : ServerState ρ), s.Healthy names frames →
      (s.Offers step ∧ s.Harmless md5 names frames step) →
        Continues names frames (s.loopStep md5 step) :=
    fun step s hs hok => hs.loopStep md5 hsize hok.1 hok.2
  have hnew : (new handlers authenticationManager authorizationManager).Healthy names frames :=
    healthy_new handlers authenticationManager authorizationManager
  refine ⟨?_, fun pre step hpre fd hne hopen => ?_⟩
  · rw [eventLoop, Outcome.forEach_forEach]
    exact (h.ensures hstep hnew).returns
  · obtain ⟨rest, hrest⟩ := hpre
    rw [← hrest, List.append_assoc, Outcome.meets_append] at h
    have hreturns := (h.1.ensures hstep hnew).returns
    have hoffers := (h.2 hreturns).1.1
    rw [Outcome.forEach_append, Outcome.andThen_of_ok hreturns, Outcome.forEach_singleton]
    exact isOpenAt_loopStep md5 hoffers hne hopen

/-! ### What it survives, and what not -/

/-- A client is refused. The next one gets in, subscribes, and asks for a malformed pattern; then
the configuration is read again, and the connection fails. -/
def troubledTurns : List (Turn PlainRegex) :=
  let subscribe := Message.wire (.subscriptionRequest ⟨ascii "A", true⟩)
  let listen := Message.wire (.notificationRequest ⟨ascii "(", true⟩)
  [⟨none, [accepted]⟩, ⟨none, [received [badLogin]]⟩, ⟨none, [accepted]⟩,
    ⟨none, [received [login, subscribe, listen]]⟩,
    ⟨some ⟨none, fun _ => .error (.runtimeError "invalid")⟩,
      [⟨4, true, false, .error (.systemError "accept"), [.failed], [], none⟩]⟩]

theorem staysUp_of_trouble : listening.StaysUp zeroDigest troubledTurns :=
  staysUp_eventLoop zeroDigest (Std.ExtTreeMap.insert ∅ 3 (.listener true)) (.new none)
    (.new none []) 100 1000 (by decide) troubledTurns (by decide +kernel)

/-- A frame with an unknown type byte ends the program, and so does an `accept` that fails, and the answer
to a client that has gone. -/
theorem taken_down :
    ¬ listening.StaysUp zeroDigest
      [⟨none, [accepted]⟩, ⟨none, [received [[0, 0, 0, 1, 0]]]⟩] ∧
    ¬ listening.StaysUp zeroDigest
      [⟨none, [⟨3, true, false, .error (.systemError "accept"), [], [], none⟩]⟩] ∧
    ¬ listening.StaysUp zeroDigest
      [⟨none, [accepted]⟩, ⟨none, [{ received [login] with writes := [.sigpipe] }]⟩] := by
  refine ⟨?_, ?_, ?_⟩
  · intro h
    have hfault : (listening.eventLoop zeroDigest
        [⟨none, [accepted]⟩, ⟨none, [received [[0, 0, 0, 1, 0]]]⟩]).fault = some .terminated := by
      decide +kernel
    rw [h.returns] at hfault
    cases hfault
  · intro h
    have hfault : (listening.eventLoop zeroDigest
        [⟨none, [⟨3, true, false, .error (.systemError "accept"), [], [], none⟩]⟩]).fault =
          some (.thrown (.systemError "accept")) := by
      decide +kernel
    rw [h.returns] at hfault
    cases hfault
  · intro h
    have hfault : (listening.eventLoop zeroDigest
        [⟨none, [accepted]⟩, ⟨none, [{ received [login] with writes := [.sigpipe] }]⟩]).fault =
          some .killed := by
      decide +kernel
    rw [h.returns] at hfault
    cases hfault

end ServerState

end SquawkBus.Server
