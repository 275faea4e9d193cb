import SquawkBus.Server.Broker
import SquawkBus.Server.LoopRule
import SquawkBus.Server.PasswordCheck
import SquawkBus.Server.PasswordReload

/-!
# The configuration in force

The password file and the authorizations are read when the server starts, and again at every interrupt. An
interrupt that finds a file which is no good changes nothing, with one exception: good passwords are in
force even where the authorizations behind them fail to load. Nothing else that the server does has a
say in what is in force (`inForce_run`), and logins go by it (`logins_run`).
-/

namespace SquawkBus.Server

open SquawkBus.Io SquawkBus.Messages SquawkBus.Serialization

variable {ρ : Type} [RegexEngine ρ]

/-! ## What was read last -/

namespace Configuration

/-- The lines of the password file, if they are accepted: each that is no comment has a colon. Where no
file is configured there are no lines, and nothing is amiss. -/
def lines? (passwordFile : Option Bytes) (configuration : Configuration ρ) : Option (List Bytes) :=
  match passwordFile with
  | none => some []
  | some _ =>
      configuration.passwords.filter fun lines =>
        lines.all fun line => AuthenticationManager.isComment line || line.contains 58

/-- The specifications, if it comes to loading them, and they load. -/
def specs? (passwordFile path : Option Bytes) (cmdLineSpecs : List (AuthorizationSpec ρ))
    (configuration : Configuration ρ) : Option (List (AuthorizationSpec ρ)) :=
  (configuration.lines? passwordFile).bind fun _ =>
    (configured path cmdLineSpecs configuration.authorizations).toOption

end Configuration

/-- **The password lines in force**: those of the last configuration whose lines were accepted. -/
def linesInForce (passwordFile : Option Bytes) (found : List (Configuration ρ)) : List Bytes :=
  (found.reverse.findSome? (Configuration.lines? passwordFile)).getD []

/-- **The specifications in force**: those of the last configuration that was good in all. -/
def specsInForce (passwordFile path : Option Bytes) (cmdLineSpecs : List (AuthorizationSpec ρ))
    (found : List (Configuration ρ)) : List (AuthorizationSpec ρ) :=
  (found.reverse.findSome? (Configuration.specs? passwordFile path cmdLineSpecs)).getD []

/-- What the interrupts of a run find. -/
def interrupts (steps : List (LoopStep ρ)) : List (Configuration ρ) :=
  steps.filterMap fun
    | .interrupt configuration => some configuration
    | _ => none

section

variable {passwordFile path : Option Bytes} {cmdLineSpecs : List (AuthorizationSpec ρ)}

theorem linesInForce_snoc (found : List (Configuration ρ)) (configuration : Configuration ρ) :
    linesInForce passwordFile (found ++ [configuration]) =
      (configuration.lines? passwordFile).getD (linesInForce passwordFile found) := by
  unfold linesInForce
  rw [List.reverse_append, List.reverse_singleton, List.singleton_append, List.findSome?_cons]
  cases configuration.lines? passwordFile <;> rfl

theorem specsInForce_snoc (found : List (Configuration ρ)) (configuration : Configuration ρ) :
    specsInForce passwordFile path cmdLineSpecs (found ++ [configuration]) =
      (configuration.specs? passwordFile path cmdLineSpecs).getD
        (specsInForce passwordFile path cmdLineSpecs found) := by
  unfold specsInForce
  rw [List.reverse_append, List.reverse_singleton, List.singleton_append, List.findSome?_cons]
  cases configuration.specs? passwordFile path cmdLineSpecs <;> rfl

/-- Without a password file there are never any lines. -/
theorem linesInForce_of_no_file (found : List (Configuration ρ)) : linesInForce none found = [] := by
  unfold linesInForce
  cases found.reverse <;> rfl

end

/-! ## Loading -/

namespace AuthenticationManager

/-- The manager has the records of these lines. -/
structure Holds (passwordFile : Option Bytes) (manager : AuthenticationManager) (lines : List Bytes) :
    Prop where
  passwordFile : manager.passwordFile = passwordFile
  records : ∀ user : Bytes, manager.repository.entries[user]? = lines.findSome? (record? user)

theorem all_lines_iff {lines : List Bytes} :
    (lines.all fun line => isComment line || line.contains 58) = true ↔
      ∀ line ∈ lines, isComment line = false → 58 ∈ line := by
  rw [List.all_eq_true]
  refine forall₂_congr fun line _ => ?_
  cases isComment line <;> simp

/-- **A load** either has the records of the lines it finds, or fails. -/
theorem Holds.load {passwordFile : Option Bytes} {manager : AuthenticationManager}
    {found : List (Configuration ρ)}
    (h : manager.Holds passwordFile (linesInForce passwordFile found)) (configuration : Configuration ρ) :
    (∃ lines manager', configuration.lines? passwordFile = some lines ∧
        manager.load configuration.passwords = .ok manager' ∧ manager'.Holds passwordFile lines) ∨
      configuration.lines? passwordFile = none ∧
        ∃ e, manager.load configuration.passwords = .error e := by
  unfold Configuration.lines? AuthenticationManager.load
  rw [h.passwordFile]
  cases passwordFile with
  | none =>
      rw [linesInForce_of_no_file] at h
      exact .inl ⟨[], manager, rfl, rfl, h⟩
  | some path =>
      cases configuration.passwords with
      | none => exact .inr ⟨rfl, _, rfl⟩
      | some lines =>
          have hreturns := (parse_returns_iff lines ∅).trans all_lines_iff.symm
          cases hparse : parse lines ∅ with
          | ok entries =>
              have hall := hreturns.mp ⟨entries, hparse⟩
              refine .inl ⟨lines, ⟨⟨entries⟩, some path⟩, ?_, ?_, rfl, fun user => ?_⟩
              · show Option.filter _ (some lines) = _
                rw [Option.filter_some, if_pos hall]
              · simp [hparse, bind, Except.bind, pure, Except.pure]
              · rw [get_parse hparse user]
                simp
          | error e =>
              have hnot : ¬ (lines.all fun line => isComment line || line.contains 58) = true := by
                rw [← hreturns, hparse]
                simp
              refine .inr ⟨?_, e, ?_⟩
              · show Option.filter _ (some lines) = _
                rw [Option.filter_some, if_neg hnot]
              · simp [hparse, bind, Except.bind]

/-- **With a token** a user gets in by the record there is of it. -/
theorem authenticateBasic_iff {md5 : Bytes → Bytes} {manager : AuthenticationManager}
    {request : AuthenticationRequest} {user : Bytes} :
    manager.authenticateBasic md5 request = .ok (some user) ↔
      ∃ password, base64Decode request.data = user ++ 58 :: password ∧ 58 ∉ user ∧
        ∃ salt, salt.length ≤ 8 ∧ 36 ∉ salt ∧
          manager.repository.entries[user]? = some (apr1Record md5 password salt) := by
  unfold authenticateBasic
  constructor
  · intro h
    obtain ⟨⟨username, password⟩, htoken, h⟩ := Except.bind_eq_ok.mp h
    obtain ⟨accepted, haccepted, h⟩ := Except.bind_eq_ok.mp h
    have huser : (if accepted then some username else none) = some user := Except.ok.inj h
    split at huser
    · next htrue =>
      obtain rfl := Option.some.inj huser
      obtain ⟨hdata, hcolon⟩ := decodeBasicToken_eq_ok_iff.mp htoken
      rw [htrue] at haccepted
      exact ⟨password, hdata, hcolon, AuthenticationRepository.authenticate_iff.mp haccepted⟩
    · cases huser
  · rintro ⟨password, hdata, hcolon, hrecord⟩
    have htoken : decodeBasicToken request.data = .ok (user, password) :=
      decodeBasicToken_eq_ok_iff.mpr ⟨hdata, hcolon⟩
    have haccepted : manager.repository.authenticate md5 user password = .ok true :=
      AuthenticationRepository.authenticate_iff.mpr hrecord
    rw [htoken]
    simp only [bind, Except.bind, haccepted]
    rfl

/-- The password lines let the user in for the request: it names the user and has the password that the
record of the user is made with. Without a password file everybody is let in as nobody. -/
def Vouched (md5 : Bytes → Bytes) (passwordFile : Option Bytes) (lines : List Bytes)
    (request : AuthenticationRequest) (user : Bytes) : Prop :=
  match passwordFile with
  | none => request.method = ascii "none" ∧ user = ascii "nobody"
  | some _ =>
      request.method = ascii "basic" ∧ ∃ password, base64Decode request.data = user ++ 58 :: password ∧
        58 ∉ user ∧ ∃ salt, salt.length ≤ 8 ∧ 36 ∉ salt ∧
          lines.findSome? (AuthenticationManager.record? user) =
            some (apr1Record md5 password salt)

theorem Holds.authenticate_iff {md5 : Bytes → Bytes} {passwordFile : Option Bytes}
    {manager : AuthenticationManager} {lines : List Bytes} (h : manager.Holds passwordFile lines)
    (hlines : passwordFile = none → lines = []) (request : AuthenticationRequest) (user : Bytes) :
    manager.authenticate md5 request = .ok (some user) ↔
      Vouched md5 passwordFile lines request user := by
  have hbasic : manager.authenticateBasic md5 request = .ok (some user) ↔ _ := authenticateBasic_iff
  simp only [h.records] at hbasic
  have hnobody : manager.authenticateNone =
      if passwordFile.isSome then none else some (ascii "nobody") := by
    rw [authenticateNone, h.passwordFile]
  unfold AuthenticationManager.authenticate
  rw [hnobody]
  by_cases hnone : request.method = ascii "none"
  · have hother : request.method ≠ ascii "basic" := by
      rw [hnone]
      decide
    rw [if_pos hnone]
    cases passwordFile with
    | none => simp [Vouched, hnone, eq_comm]
    | some path => simp [Vouched, hother]
  · rw [if_neg hnone]
    by_cases hmethod : request.method = ascii "basic"
    · rw [if_pos hmethod, hbasic]
      cases passwordFile with
      | none => simp [Vouched, hnone, hlines rfl]
      | some path => simp [Vouched, hmethod]
    · rw [if_neg hmethod]
      cases passwordFile <;> simp [Vouched, hnone, hmethod]

end AuthenticationManager

namespace ServerState

/-! ### What a server goes by -/

/-- **The server goes by the configurations found**: the passwords are the last that were accepted, and
the authorizations the last that were loaded. -/
structure GoesBy (passwordFile path : Option Bytes) (cmdLineSpecs : List (AuthorizationSpec ρ))
    (found : List (Configuration ρ)) (server : ServerState ρ) : Prop where
  passwords : server.authenticationManager.Holds passwordFile (linesInForce passwordFile found)
  authorizations : AuthorizationManager.GoesBy path cmdLineSpecs
    server.hub.publisherManager.authorizationManager
      (specsInForce passwordFile path cmdLineSpecs found)

variable {passwordFile path : Option Bytes} {cmdLineSpecs : List (AuthorizationSpec ρ)}
  {found : List (Configuration ρ)} {server server' : ServerState ρ}

theorem goesBy_new (handlers : OrdMap Fd Handler) (passwordFile path : Option Bytes)
    (cmdLineSpecs : List (AuthorizationSpec ρ)) :
    GoesBy passwordFile path cmdLineSpecs []
      (new handlers (.new passwordFile) (.new path cmdLineSpecs)) :=
  ⟨⟨rfl, fun user => by simp [new, AuthenticationManager.new, linesInForce]⟩, rfl, rfl, rfl⟩

/-- **An interrupt** puts in force what it finds and can load. -/
theorem GoesBy.onInterrupt (h : GoesBy passwordFile path cmdLineSpecs found server)
    (configuration : Configuration ρ) :
    GoesBy passwordFile path cmdLineSpecs (found ++ [configuration])
      (server.onInterrupt configuration).state := by
  unfold ServerState.onInterrupt
  rcases h.passwords.load configuration with ⟨lines, manager, hlines, hload, hholds⟩ | ⟨hlines, e, hload⟩
  · have hspecs : configuration.specs? passwordFile path cmdLineSpecs =
        (configured path cmdLineSpecs configuration.authorizations).toOption := by
      unfold Configuration.specs?
      rw [hlines]
      rfl
    have hqueued := (ensures_onHub { server with authenticationManager := manager }
      (.reload configuration.authorizations)).state
    rw [hload]
    refine ⟨?_, ?_⟩
    · rw [hqueued.authenticationManager, linesInForce_snoc, hlines]
      exact hholds
    · rw [hqueued.hub, specsInForce_snoc, hspecs]
      exact Hub.goesBy_reload h.authorizations _
  · rw [hload]
    refine ⟨?_, ?_⟩
    · rw [linesInForce_snoc, hlines]
      exact h.passwords
    · have hspecs : configuration.specs? passwordFile path cmdLineSpecs = none := by
        unfold Configuration.specs?
        rw [hlines]
        rfl
      rw [specsInForce_snoc, hspecs]
      exact h.authorizations

/-- An interrupt is nothing that anybody hears of. -/
theorem onInterrupt_events (configuration : Configuration ρ) :
    (server.onInterrupt configuration).events = [] := by
  unfold ServerState.onInterrupt
  split
  · rfl
  · have hnone : ∀ hub : Hub ρ, (hub.reload configuration.authorizations).events = [] := by
      intro hub
      unfold Hub.reload
      split <;> rfl
    unfold onHub Hub.step
    simp only [hnone, Outcome.forEach_nil]
    rw [Outcome.andThen_of_ok rfl]
    split <;> rfl

/-! ## The steps of the loop -/

theorem GoesBy.congr (h : GoesBy passwordFile path cmdLineSpecs found server)
    (hpasswords : server'.authenticationManager = server.authenticationManager)
    (hhub : server'.hub = server.hub) : GoesBy passwordFile path cmdLineSpecs found server' :=
  ⟨by rw [hpasswords]; exact h.passwords, by rw [hhub]; exact h.authorizations⟩

theorem GoesBy.hubStep (h : GoesBy passwordFile path cmdLineSpecs found server) {step : HubStep ρ}
    (hstep : ∀ file, step ≠ .reload file) :
    GoesBy passwordFile path cmdLineSpecs found (server.withHubStep step) :=
  ⟨h.passwords, Hub.goesBy_step h.authorizations hstep⟩

theorem GoesBy.onClose (h : GoesBy passwordFile path cmdLineSpecs found server) (fd : Fd) :
    GoesBy passwordFile path cmdLineSpecs found (server.onClose fd).state := by
  unfold ServerState.onClose
  split
  · exact h
  · next interactor _ =>
    have hqueued := (ensures_onHub server (.disconnected interactor.address)).state
    exact Outcome.andThen_keeps
      ((h.hubStep (by simp)).congr hqueued.authenticationManager hqueued.hub) fun s hs => hs.congr rfl rfl

/-! ### Logins -/

/-- **A login** is of a request just processed, which the lines let in. -/
def LoginBy (md5 : Bytes → Bytes) (passwordFile : Option Bytes) (lines : List Bytes)
    (past : List ServerEvent) (event : ServerEvent) : Prop :=
  ∀ fd user, event = .authenticated fd user → ∃ before request,
    past = before ++ [.processed fd (.authenticationRequest request)] ∧
      AuthenticationManager.Vouched md5 passwordFile lines request user

section

variable (md5 : Bytes → Bytes)

/-- The server goes by the configurations found, and so did the logins so far. -/
structure GoneBy (passwordFile path : Option Bytes) (cmdLineSpecs : List (AuthorizationSpec ρ))
    (found : List (Configuration ρ)) (server : ServerState ρ) (past : List ServerEvent) : Prop where
  goesBy : GoesBy passwordFile path cmdLineSpecs found server
  logins : Run.Abides (LoginBy md5 passwordFile (linesInForce passwordFile found)) past

variable {md5} {past : List ServerEvent} {fd : Fd} {interactor : Interactor}

theorem GoneBy.congr (h : GoneBy md5 passwordFile path cmdLineSpecs found server past)
    (hpasswords : server'.authenticationManager = server.authenticationManager)
    (hhub : server'.hub = server.hub) :
    GoneBy md5 passwordFile path cmdLineSpecs found server' past :=
  ⟨h.goesBy.congr hpasswords hhub, h.logins⟩

/-- Another event than a login. -/
theorem GoneBy.snoc (h : GoneBy md5 passwordFile path cmdLineSpecs found server past)
    (event : ServerEvent) (hevent : ∀ fd user, event ≠ .authenticated fd user) :
    GoneBy md5 passwordFile path cmdLineSpecs found server (record past event) :=
  ⟨h.goesBy, h.logins.snoc fun fd user heq => absurd heq (hevent fd user)⟩

variable (md5)

theorem keeps_goneBy_onHub {step : HubStep ρ} (hstep : ∀ file, step ≠ .reload file) :
    (server.onHub step).Keeps record (GoneBy md5 passwordFile path cmdLineSpecs found) server :=
  keeps_onHub (fun _ _ _ h => h.congr rfl rfl)
    (fun _ h => ⟨h.goesBy.hubStep hstep, h.logins⟩)
    fun _ _ _ _ _ _ _ h => h.snoc _ (by simp)

theorem keeps_goneBy_processMessage (server : ServerState ρ) (fd : Fd) (interactor : Interactor)
    (message : Message) : (server.processMessage md5 fd interactor message).Keeps record
      (GoneBy md5 passwordFile path cmdLineSpecs found) server := by
  cases huser : interactor.user with
  | some user =>
      have hsome : interactor.user.isSome := by simp [huser]
      rw [processMessage_of_user md5 hsome]
      refine Outcome.Keeps.andThen (fun past h => ?_) (keeps_goneBy_onHub md5 (by simp))
      exact (h.snoc _ (by simp)).snoc _ (by simp)
  | none =>
      rw [processMessage_of_none md5 huser]
      intro past h
      have hprocessed : GoneBy md5 passwordFile path cmdLineSpecs found server
          (record past (.processed fd message)) := h.snoc _ (by simp)
      rw [Outcome.andThen_of_ok rfl]
      cases message with
      | authenticationRequest request =>
          cases hanswer : server.authenticationManager.authenticate md5 request with
          | error e =>
              rw [Outcome.emit_state, authenticate_error md5 hanswer]
              exact hprocessed
          | ok answer =>
              cases answer with
              | some user =>
                  have hvouched := (h.goesBy.passwords.authenticate_iff (by
                    rintro rfl
                    exact linesInForce_of_no_file found) request user).mp hanswer
                  rw [Outcome.emit_state, authenticate_some md5 hanswer]
                  refine GoneBy.congr (GoneBy.snoc ⟨h.goesBy, hprocessed.logins.snoc ?_⟩
                    (.sent fd (.authenticationResponse ⟨true⟩)) (by simp)) (by simp) (by simp)
                  rintro fd' user' heq
                  obtain ⟨rfl, rfl⟩ := ServerEvent.authenticated.inj heq
                  exact ⟨past, request, rfl, hvouched⟩
              | none =>
                  rw [Outcome.emit_state, authenticate_none md5 hanswer]
                  exact GoneBy.congr ((hprocessed.snoc _ (by simp)).snoc _ (by simp)) (by simp) (by simp)
      | _ =>
          rw [Outcome.emit_state, authenticate_other md5 (by simp)]
          exact GoneBy.congr (hprocessed.snoc _ (by simp)) (by simp) (by simp)

theorem keeps_goneBy_onClose (server : ServerState ρ) (fd : Fd) :
    (server.onClose fd).Keeps record (GoneBy md5 passwordFile path cmdLineSpecs found) server := by
  unfold onClose
  split
  · exact Outcome.keeps_done fun _ h => h
  · refine (keeps_goneBy_onHub md5 (by simp)).andThen (Outcome.keeps_emit fun past h => ?_)
    exact (h.snoc (.closed fd) (by simp)).congr rfl rfl

/-- **Between the interrupts** nothing is put in force, and all logins go by what is. -/
theorem keeps_goneBy_loopStep {step : LoopStep ρ} (hstep : ∀ configuration, step ≠ .interrupt configuration) :
    (server.loopStep md5 step).Keeps record (GoneBy md5 passwordFile path cmdLineSpecs found) server := by
  refine keeps_loopStep md5 (fun _ _ _ h => h.congr rfl rfl) (fun _ _ _ _ _ _ h => h.congr rfl rfl)
    (fun s fd interactor message _ => keeps_goneBy_processMessage md5 s fd interactor message)
    (fun configuration heq => absurd heq (hstep configuration))
    (fun s fd => keeps_goneBy_onClose md5 s fd) fun client _ => Outcome.keeps_emit fun past h => ?_
  exact (h.snoc (.opened client.fd) (by simp)).congr rfl rfl

theorem GoesBy.loopStep (h : GoesBy passwordFile path cmdLineSpecs found server) (step : LoopStep ρ) :
    GoesBy passwordFile path cmdLineSpecs (found ++ interrupts [step])
      (server.loopStep md5 step).state := by
  have hgone : (∀ configuration, step ≠ .interrupt configuration) →
      GoesBy passwordFile path cmdLineSpecs found (server.loopStep md5 step).state := fun hstep =>
    (keeps_goneBy_loopStep md5 hstep [] ⟨h, Run.abides_nil _⟩).goesBy
  cases step with
  | interrupt configuration =>
      rw [ServerState.loopStep, handleInterrupt_state]
      exact h.onInterrupt configuration
  | event event =>
      rw [show found ++ interrupts [LoopStep.event event] = found from List.append_nil found]
      exact hgone (by simp)
  | sweep =>
      rw [show found ++ interrupts [LoopStep.sweep] = found from List.append_nil found]
      exact hgone (by simp)

theorem GoesBy.loopSteps (h : GoesBy passwordFile path cmdLineSpecs found server)
    {steps : List (LoopStep ρ)}
    (hreturns : (Outcome.forEach (ServerState.loopStep md5) steps server).fault = none) :
    GoesBy passwordFile path cmdLineSpecs (found ++ interrupts steps)
      (Outcome.forEach (ServerState.loopStep md5) steps server).state := by
  induction steps generalizing server found with
  | nil => simpa [interrupts] using h
  | cons step steps ih =>
      rw [Outcome.forEach_cons] at hreturns ⊢
      obtain ⟨hstep, hsteps⟩ := Outcome.returns_andThen hreturns
      have hall : found ++ interrupts (step :: steps) = found ++ interrupts [step] ++ interrupts steps := by
        rw [List.append_assoc]
        exact congrArg (found ++ ·) (List.filterMap_append (l := [step]) ..)
      rw [Outcome.andThen_of_ok hstep, hall]
      exact ih (h.loopStep md5 step) hsteps

/-! ## Runs -/

/-- The server started, and the steps of its loop that it has come through. -/
def startUp (startup : Configuration ρ) (steps : List (LoopStep ρ)) (server : ServerState ρ) :
    ServerOutcome ρ :=
  (server.onInterrupt startup).andThen (Outcome.forEach (ServerState.loopStep md5) steps)

theorem goesBy_startUp {handlers : OrdMap Fd Handler} {startup : Configuration ρ}
    {steps : List (LoopStep ρ)}
    (hreturns : ((new handlers (.new passwordFile) (.new path cmdLineSpecs)).startUp md5 startup
      steps).fault = none) :
    GoesBy passwordFile path cmdLineSpecs (startup :: interrupts steps)
      ((new handlers (.new passwordFile) (.new path cmdLineSpecs)).startUp md5 startup steps).state := by
  obtain ⟨hstart, hsteps⟩ := Outcome.returns_andThen hreturns
  unfold startUp
  rw [Outcome.andThen_of_ok hstart]
  exact ((goesBy_new handlers passwordFile path cmdLineSpecs).onInterrupt startup).loopSteps md5 hsteps

/-- **What is in force** in every run of a server: who is let in is as the password lines last accepted
say, and what is granted is as the authorizations say that were last loaded, behind passwords that were
accepted. -/
theorem inForce_run (handlers : OrdMap Fd Handler) (passwordFile path : Option Bytes)
    (cmdLineSpecs : List (AuthorizationSpec ρ)) (startup : Configuration ρ) (steps : List (LoopStep ρ))
    (hreturns : ((new handlers (.new passwordFile) (.new path cmdLineSpecs)).startUp md5 startup
      steps).fault = none) :
    let server := ((new handlers (.new passwordFile) (.new path cmdLineSpecs)).startUp md5 startup
      steps).state
    let found := startup :: interrupts steps
    (∀ request user, server.authenticationManager.authenticate md5 request = .ok (some user) ↔
      AuthenticationManager.Vouched md5 passwordFile (linesInForce passwordFile found) request user) ∧
    ∀ user topic role, (server.hub.publisherManager.entitlements user topic role).1 =
      scan (specsInForce passwordFile path cmdLineSpecs found) user topic role := by
  intro server found
  have hgoes : GoesBy passwordFile path cmdLineSpecs found server := goesBy_startUp md5 hreturns
  refine ⟨hgoes.passwords.authenticate_iff ?_, fun user topic role => ?_⟩
  · rintro rfl
    exact linesInForce_of_no_file found
  · rw [PublisherManager.entitlements_fst, AuthorizationManager.inForce, hgoes.authorizations.specs]

/-- Logins go by what the server goes by. -/
theorem GoesBy.logins (h : GoesBy passwordFile path cmdLineSpecs found server) (step : LoopStep ρ) :
    Run.Abides (LoginBy md5 passwordFile (linesInForce passwordFile found))
      (server.loopStep md5 step).events := by
  by_cases hstep : ∃ configuration, step = .interrupt configuration
  · obtain ⟨configuration, rfl⟩ := hstep
    rw [ServerState.loopStep, handleInterrupt_events, onInterrupt_events]
    exact Run.abides_nil _
  · have hgone := keeps_goneBy_loopStep md5 (not_exists.mp hstep) [] ⟨h, Run.abides_nil _⟩
    rw [foldl_record] at hgone
    exact hgone.logins

/-- **Every login goes by the password lines in force**, in every run: a user who gets in at a step of the
loop is named in the request that is processed then, with the password of its record. -/
theorem logins_run (handlers : OrdMap Fd Handler) (passwordFile path : Option Bytes)
    (cmdLineSpecs : List (AuthorizationSpec ρ)) (startup : Configuration ρ) (steps : List (LoopStep ρ))
    (hreturns : ((new handlers (.new passwordFile) (.new path cmdLineSpecs)).startUp md5 startup
      steps).fault = none) (step : LoopStep ρ) :
    Run.Abides (LoginBy md5 passwordFile (linesInForce passwordFile (startup :: interrupts steps)))
      (((new handlers (.new passwordFile) (.new path cmdLineSpecs)).startUp md5 startup
        steps).state.loopStep md5 step).events :=
  (goesBy_startUp md5 hreturns).logins md5 step

end

/-! ### A password file that gets lost -/

/-- The password file has a comment and Tom's record. -/
def tomsPassword : Configuration PlainRegex :=
  ⟨some [ascii "# users", ascii "tom:" ++ apr1Record zeroDigest (ascii "pw") (ascii "salt")],
    fun _ => .ok []⟩

/-- A client connects, and at an interrupt the password file is gone. -/
def losingPasswords : List (LoopStep PlainRegex) :=
  [.event accepted, .interrupt ⟨none, fun _ => .ok []⟩]

theorem returns_losingPasswords :
    ((new (Std.ExtTreeMap.insert ∅ 3 (.listener true)) (.new (some (ascii "passwords")))
      (.new none [PublisherManager.granting {0} Role.all])).startUp zeroDigest tomsPassword
        losingPasswords).fault = none := by
  decide +kernel

/-- Tom's password is still in force. -/
theorem inForce_of_lost_passwords :
    let server := ((new (Std.ExtTreeMap.insert ∅ 3 (.listener true)) (.new (some (ascii "passwords")))
      (.new none [PublisherManager.granting {0} Role.all])).startUp zeroDigest tomsPassword
        losingPasswords).state
    let found := tomsPassword :: interrupts losingPasswords
    (∀ request user, server.authenticationManager.authenticate zeroDigest request = .ok (some user) ↔
      AuthenticationManager.Vouched zeroDigest (some (ascii "passwords"))
        (linesInForce (some (ascii "passwords")) found) request user) ∧
    ∀ user topic role, (server.hub.publisherManager.entitlements user topic role).1 =
      scan (specsInForce (some (ascii "passwords")) none [PublisherManager.granting {0} Role.all] found)
        user topic role :=
  inForce_run zeroDigest _ _ _ _ _ _ returns_losingPasswords

/-- He logs in with it. -/
theorem logins_of_lost_passwords :
    Run.Abides (LoginBy zeroDigest (some (ascii "passwords"))
        (linesInForce (some (ascii "passwords")) (tomsPassword :: interrupts losingPasswords)))
      (((new (Std.ExtTreeMap.insert ∅ 3 (.listener true)) (.new (some (ascii "passwords")))
        (.new none [PublisherManager.granting {0} Role.all])).startUp zeroDigest tomsPassword
          losingPasswords).state.loopStep zeroDigest (.event (received
            [Message.wire (.authenticationRequest ⟨ascii "basic", ascii "dG9tOnB3"⟩)]))).events :=
  logins_run zeroDigest _ _ _ _ _ _ returns_losingPasswords _

end ServerState

end SquawkBus.Server
