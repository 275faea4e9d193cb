import SquawkBus.Server.Consistency
import SquawkBus.Server.Receive

/-!
# A healthy server

A call the hub makes on an interactor succeeds if the interactor is still there. `Healthy` is what
the server keeps so that this holds: no two interactors have the same address, and the hub is
consistent with those that are authenticated. A chunk that is `Acceptable` keeps the server
healthy, whatever the client wants with it, and at most a `std::exception` comes of it.
-/

namespace SquawkBus.Server

open SquawkBus.Io SquawkBus.Messages SquawkBus.Serialization

/-! ## The invariant -/

variable {ρ : Type} [RegexEngine ρ]

/-- A handler for `std::exception` catches it. -/
def Caught : Fault → Prop
  | .thrown e => e.isStdException
  | _ => False

/-- The texts of the interactor are short, and its reader is one between two chunks. -/
structure Interactor.Fits (interactor : Interactor) (names : Nat) : Prop where
  lenFits : interactor.reader.LenFits
  frames : interactor.reader.frames = []
  user : ∀ user ∈ interactor.user, user.length ≤ names
  host : interactor.host.length ≤ 2 ^ 10
  id : interactor.id.length ≤ 2 ^ 10

namespace ServerState

variable {server server' : ServerState ρ} {names frames : Nat}

/-- The address is that of an authenticated interactor. -/
def Member (server : ServerState ρ) (address : Ptr) : Prop :=
  ∃ (fd : Fd) (interactor : Interactor), server.interactors[fd]? = some interactor ∧
    interactor.address = address ∧ interactor.user.isSome

/-- No two interactors have the same address, and the hub may call those that are authenticated. -/
structure Healthy (names frames : Nat) (server : ServerState ρ) : Prop where
  addresses : ∀ (fd fd' : Fd) (interactor interactor' : Interactor),
    server.interactors[fd]? = some interactor → server.interactors[fd']? = some interactor' →
      interactor.address = interactor'.address → fd = fd'
  fits : ∀ (fd : Fd) (interactor : Interactor), server.interactors[fd]? = some interactor →
    interactor.Fits names
  hub : server.hub.Consistent server.Member frames

/-- The call keeps the server healthy, and only a `std::exception` can come of it. -/
abbrev Survives (names frames : Nat) (outcome : ServerOutcome ρ) : Prop :=
  outcome.Ensures (Healthy names frames) (fun _ => True) Caught

/-- The call keeps the server healthy, and returns. -/
abbrev Continues (names frames : Nat) (outcome : ServerOutcome ρ) : Prop :=
  outcome.Ensures (Healthy names frames) (fun _ => True) fun _ => False

theorem healthy_new (handlers : OrdMap Fd Handler) (authenticationManager : AuthenticationManager)
    (authorizationManager : AuthorizationManager ρ) :
    (new handlers authenticationManager authorizationManager).Healthy names frames where
  addresses fd _ interactor _ h := by simp [new] at h
  fits fd interactor h := by simp [new] at h
  hub := Hub.consistent_new authorizationManager

/-- Handlers and passwords have nothing to do with it. -/
theorem Healthy.congr (h : server.Healthy names frames)
    (hinteractors : server'.interactors = server.interactors) (hhub : server'.hub = server.hub) :
    server'.Healthy names frames where
  addresses := by rw [hinteractors]; exact h.addresses
  fits := by rw [hinteractors]; exact h.fits
  hub := by
    rw [hhub]
    refine h.hub.mono fun i hi => ?_
    unfold Member at hi ⊢
    rwa [hinteractors]

/-! ## Calls on interactors -/

theorem get_of_interactorAt {address : Ptr} {interactor : Interactor}
    (h : server.interactorAt address = some interactor) :
    interactor.address = address ∧ ∃ fd : Fd, server.interactors[fd]? = some interactor := by
  obtain ⟨⟨fd, interactor'⟩, hfind, rfl⟩ := Option.map_eq_some_iff.mp h
  have hmem := Std.ExtTreeMap.mem_toList_iff_getElem?_eq_some.mp (List.mem_of_find?_eq_some hfind)
  exact ⟨by simpa using List.find?_some hfind, fd, hmem⟩

/-- At the address of an interactor there is one. -/
theorem interactorAt_of_get {fd : Fd} {interactor : Interactor}
    (hget : server.interactors[fd]? = some interactor) :
    ∃ found, server.interactorAt interactor.address = some found := by
  cases hat : server.interactorAt interactor.address with
  | some found => exact ⟨found, rfl⟩
  | none =>
      have hnone := List.find?_eq_none.mp (Option.map_eq_none_iff.mp hat) (fd, interactor)
        (Std.ExtTreeMap.mem_toList_iff_getElem?_eq_some.mpr hget)
      simp at hnone

/-- Where no two interactors have the same address, each is found by its own. -/
theorem interactorAt_of_addresses {fd : Fd} {interactor : Interactor}
    (haddresses : ∀ (fd fd' : Fd) (x x' : Interactor), server.interactors[fd]? = some x →
      server.interactors[fd']? = some x' → x.address = x'.address → fd = fd')
    (hget : server.interactors[fd]? = some interactor) :
    server.interactorAt interactor.address = some interactor := by
  obtain ⟨interactor', hat⟩ := interactorAt_of_get hget
  obtain ⟨haddress, fd', hget'⟩ := get_of_interactorAt hat
  obtain rfl := haddresses fd' fd interactor' interactor hget' hget haddress
  rw [hat, ← hget', hget]

/-- An interactor is found by its address. -/
theorem Healthy.interactorAt (h : server.Healthy names frames) {fd : Fd} {interactor : Interactor}
    (hget : server.interactors[fd]? = some interactor) :
    server.interactorAt interactor.address = some interactor :=
  interactorAt_of_addresses h.addresses hget

theorem Healthy.identify (h : server.Healthy names frames) (address : Ptr) :
    (server.identify address).Fits names := by
  unfold ServerState.identify
  split
  · exact ⟨Nat.zero_le _, Nat.zero_le _, Nat.zero_le _⟩
  · next interactor hat =>
    obtain ⟨-, fd, hget⟩ := get_of_interactorAt hat
    have hfits := h.fits fd interactor hget
    refine ⟨?_, hfits.host, hfits.id⟩
    cases huser : interactor.user with
    | none => exact Nat.zero_le _
    | some user => exact hfits.user user huser

/-! ### Safe calls -/

/-- The call finds its interactor, and there what it asks for. -/
def Safe (server : ServerState ρ) (call : Call) : Prop :=
  ∃ interactor, server.interactorAt call.interactor = some interactor ∧
    (∀ i, call = .user i → interactor.user.isSome) ∧ ∀ i m, call = .send i m → Sendable m

theorem ensures_perform_of_safe {call : Call} (h : server.Safe call) :
    (server.perform call).Ensures (Queued server) (fun _ => True) fun _ => False := by
  obtain ⟨interactor, hat, huser, hsend⟩ := h
  unfold perform
  rw [hat]
  cases call with
  | user i =>
      simp only [huser i rfl, if_true]
      exact Outcome.ensures_done (.refl server)
  | send i message =>
      obtain ⟨hfits, hlength⟩ := hsend i message rfl
      simp only [send, Message.toVector_serialize hfits hlength]
      exact Outcome.ensures_emit (server.queued_write _ _) (by simp)
  | str _ | host _ | id _ => exact Outcome.ensures_done (.refl server)

/-- **A step of the hub with safe calls** ends as the hub's own step does. -/
theorem ensures_onHub_of_safe {step : HubStep ρ}
    (h : ∀ call ∈ (server.hub.step server.identify step).events, server.Safe call) :
    (server.onHub step).Ensures
      (Queued { server with hub := (server.hub.step server.identify step).state })
      (fun _ => True) fun fault => ∃ e, fault = .thrown e ∧
        (server.hub.step server.identify step).fault = some e := by
  refine onHub_rule (fun call hmem s hs => ?_) fun e he => ⟨e, rfl, he⟩
  obtain ⟨interactor, hat, hasked⟩ := h call hmem
  have hat' : s.interactorAt call.interactor = some interactor := by
    unfold ServerState.interactorAt at hat ⊢
    rw [hs.interactors]
    exact hat
  exact (ensures_perform_of_safe ⟨interactor, hat', hasked⟩).mono (fun _ h => h) (fun _ h => h)
    fun _ h => h.elim

/-- A step of the hub with safe calls returns when the hub's own step does. -/
theorem returns_onHub_of_safe {step : HubStep ρ}
    (h : ∀ call ∈ (server.hub.step server.identify step).events, server.Safe call)
    (hreturns : (server.hub.step server.identify step).fault = none) :
    (server.onHub step).fault = none := by
  refine Option.eq_none_iff_forall_ne_some.mpr fun fault hfault => ?_
  obtain ⟨e, -, he⟩ := (ensures_onHub_of_safe h).fault fault hfault
  rw [hreturns] at he
  cases he

/-- What a consistent hub calls on members is safe, when they can be found. -/
theorem safe_of_consistent (hhub : server.hub.Consistent server.Member frames)
    (hfound : ∀ (fd : Fd) interactor, server.interactors[fd]? = some interactor →
      server.interactorAt interactor.address = some interactor)
    (hidentify : ∀ address, (server.identify address).Fits names)
    (hsize : names + frames + 2 ^ 12 < 2 ^ 31) {step : HubStep ρ}
    (hmember : ∀ i, step.interactor? = some i → server.Member i)
    (hstep : ∀ i m, step = .message i m → m.Fits ∧ m.encode.length ≤ frames) :
    ∀ call ∈ (server.hub.step server.identify step).events, server.Safe call := by
  intro call hcall
  obtain ⟨fd, interactor, hget, haddress, huser⟩ := hhub.calls hmember hcall
  refine ⟨interactor, ?_, fun _ _ => huser, fun i m heq => ?_⟩
  · rw [← haddress]
    exact hfound fd interactor hget
  · exact hhub.sendable hidentify hsize hstep ((Hub.step_calls hcall).2 i m heq)

/-- What the hub of a healthy server calls on members is safe. -/
theorem Healthy.safe (h : server.Healthy names frames) (hsize : names + frames + 2 ^ 12 < 2 ^ 31)
    {step : HubStep ρ} (hmember : ∀ i, step.interactor? = some i → server.Member i)
    (hstep : ∀ i m, step = .message i m → m.Fits ∧ m.encode.length ≤ frames) :
    ∀ call ∈ (server.hub.step server.identify step).events, server.Safe call :=
  safe_of_consistent h.hub (fun _ _ hget => h.interactorAt hget) h.identify hsize hmember hstep

/-! ## One chunk -/

/-- The first message of a connection is an authentication request, and no later one makes the hub
lose track of the client. -/
def Permits (server : ServerState ρ) (interactor : Interactor) (message : Message) : Prop :=
  match interactor.user with
  | none => message.messageType = .authenticationRequest
  | some _ => server.hub.KeepsSubscriber interactor.address message

/-- What may be received: no more bytes than an `int` can count, and frames that hold messages the
server permits, up to `names` bytes for an authentication request and `frames` bytes later. -/
def Acceptable (names frames : Nat) (fd : Fd) (server : ServerState ρ) (buf : Bytes) : Prop :=
  ∀ interactor ∈ server.interactors[fd]?,
    interactor.reader.fbuf.retained + buf.length < 2 ^ 31 ∧
    ∀ frame ∈ interactor.reader.framesOf [buf],
      frame.length ≤ (if interactor.user.isSome then frames else names) ∧ WellFormed frame ∧
        ∀ message ∈ Message.ofFrame frame, server.Permits interactor message

instance (server : ServerState ρ) (interactor : Interactor) (message : Message) :
    Decidable (server.Permits interactor message) := by
  unfold Permits
  split <;> infer_instance

instance (fd : Fd) (server : ServerState ρ) (buf : Bytes) :
    Decidable (server.Acceptable names frames fd buf) := by
  unfold Acceptable
  infer_instance

/-! ### What changes -/

/-- An interactor that keeps its address, and its user, leaves all members members. -/
theorem Member.withInteractor {address : Ptr} (h : server.Member address) {fd : Fd}
    {interactor interactor' : Interactor} (hget : server.interactors[fd]? = some interactor)
    (haddress : interactor'.address = interactor.address)
    (huser : interactor.user.isSome → interactor'.user.isSome) :
    (server.withInteractor fd interactor').Member address := by
  obtain ⟨fd₁, i₁, hget₁, haddress₁, huser₁⟩ := h
  by_cases hfd : fd = fd₁
  · subst hfd
    obtain rfl := Option.some.inj (hget.symm.trans hget₁)
    exact ⟨fd, interactor', server.get_withInteractor fd interactor', haddress.trans haddress₁,
      huser huser₁⟩
  · exact ⟨fd₁, i₁, by rw [OrdMap.get_insert, if_neg hfd]; exact hget₁, haddress₁, huser₁⟩

theorem Healthy.withInteractor (h : server.Healthy names frames) {fd : Fd}
    {interactor interactor' : Interactor} (hget : server.interactors[fd]? = some interactor)
    (haddress : interactor'.address = interactor.address) (hfits : interactor'.Fits names)
    (huser : interactor.user.isSome → interactor'.user.isSome) :
    (server.withInteractor fd interactor').Healthy names frames where
  addresses fd₁ fd₂ i₁ i₂ hget₁ hget₂ heq := by
    rcases OrdMap.get_of_insert hget₁ with ⟨rfl, rfl⟩ | ⟨-, hold₁⟩ <;>
      rcases OrdMap.get_of_insert hget₂ with ⟨rfl, rfl⟩ | ⟨-, hold₂⟩
    · rfl
    · exact h.addresses fd₁ fd₂ interactor i₂ hget hold₂ (haddress.symm.trans heq)
    · exact h.addresses fd₁ fd₂ i₁ interactor hold₁ hget (heq.trans haddress)
    · exact h.addresses fd₁ fd₂ i₁ i₂ hold₁ hold₂ heq
  fits fd₁ i₁ hget₁ := by
    rcases OrdMap.get_of_insert hget₁ with ⟨rfl, rfl⟩ | ⟨-, hget₁⟩
    · exact hfits
    · exact h.fits fd₁ i₁ hget₁
  hub := h.hub.mono fun _ hi => hi.withInteractor hget haddress huser

theorem Healthy.onMessage (h : server.Healthy names frames)
    (hsize : names + frames + 2 ^ 12 < 2 ^ 31) {fd : Fd} {interactor : Interactor}
    (hget : server.interactors[fd]? = some interactor) (huser : interactor.user.isSome)
    {message : Message} (hfits : message.Fits) (hlength : message.encode.length ≤ frames)
    (hkeeps : server.hub.KeepsSubscriber interactor.address message) :
    Survives names frames (server.onHub (.message interactor.address message)) := by
  have hmember : server.Member interactor.address := ⟨fd, interactor, hget, rfl, huser⟩
  have hsafe : ∀ call ∈ (server.hub.step server.identify
      (.message interactor.address message)).events, server.Safe call := by
    refine h.safe hsize (fun i hi => Option.some.inj hi ▸ hmember) fun i m heq => ?_
    cases heq
    exact ⟨hfits, hlength⟩
  refine (ensures_onHub_of_safe hsafe).mono (fun s hs => ?_) (fun _ h => h) ?_
  · have hhub : Healthy names frames { server with hub :=
        (server.hub.step server.identify (.message interactor.address message)).state } :=
      ⟨h.addresses, h.fits, h.hub.message server.identify hmember hlength hkeeps⟩
    exact hhub.congr hs.interactors hs.hub
  · rintro _ ⟨e, rfl, he⟩
    exact Hub.fault_message he

section

variable (md5 : Bytes → Bytes)

/-- A request is accepted, refused, or ends in an exception that is caught. -/
theorem Healthy.authenticate (h : server.Healthy names frames) {fd : Fd} {interactor : Interactor}
    (hget : server.interactors[fd]? = some interactor) (hnone : interactor.user = none)
    {request : AuthenticationRequest}
    (hlength : (Message.authenticationRequest request).encode.length ≤ names) :
    Survives names frames
      (server.authenticate md5 fd interactor (.authenticationRequest request)) := by
  have hfits := h.fits fd interactor hget
  have hanswered : ∀ user : Option Bytes, (∀ name ∈ user, name.length ≤ names) →
      (server.withInteractor fd { interactor with user }).Healthy names frames := by
    intro user huser
    refine h.withInteractor hget rfl ⟨hfits.lenFits, hfits.frames, huser, hfits.host, hfits.id⟩ ?_
    rw [hnone]
    intro hsome
    cases hsome
  cases hanswer : server.authenticationManager.authenticate md5 request with
  | error e =>
      rw [authenticate_error md5 hanswer]
      exact Outcome.ensures_fail h
        (AuthenticationManager.isStdException_of_authenticate hanswer)
  | ok user =>
      cases user with
      | none =>
          rw [authenticate_none md5 hanswer]
          refine Outcome.ensures_emit ((hanswered none (by simp)).congr ?_ ?_) (by simp)
          · rw [interactors_write, interactors_close]
          · rw [hub_write, hub_close]
      | some user =>
          rw [authenticate_some md5 hanswer]
          have huser := AuthenticationManager.length_user_of_authenticate hanswer
          simp only [Message.encode, Message.encodeBody, FrameStream.encodeString,
            List.length_cons, List.length_append, length_networkLongToBuf] at hlength
          refine Outcome.ensures_emit ((hanswered (some user) ?_).congr ?_ ?_) (by simp)
          · intro name hname
            obtain rfl := Option.some.inj hname
            omega
          · rw [interactors_write]
          · rw [hub_write]

theorem Healthy.processFrame (h : server.Healthy names frames)
    (hsize : names + frames + 2 ^ 12 < 2 ^ 31) {fd : Fd} {interactor : Interactor}
    (hget : server.interactors[fd]? = some interactor) {frame : Bytes}
    (hlength : frame.length ≤ (if interactor.user.isSome then frames else names))
    (hformed : WellFormed frame)
    (hpermits : ∀ message ∈ Message.ofFrame frame, server.Permits interactor message) :
    Survives names frames (server.processFrame md5 fd interactor frame) := by
  obtain ⟨message, hmessage, hfits, hle⟩ := ofFrame_of_wellFormed hformed
  have hpermitted := hpermits message hmessage
  have hprocess : server.processFrame md5 fd interactor frame =
      server.processMessage md5 fd interactor message := by
    unfold Message.ofFrame at hmessage
    unfold ServerState.processFrame
    split at hmessage
    · next hrun =>
      obtain rfl := Option.some.inj hmessage
      rw [hrun]
    · cases hmessage
  rw [hprocess]
  cases huser : interactor.user with
  | some user =>
      simp only [Permits, huser] at hpermitted
      simp only [huser, Option.isSome_some, if_true] at hlength
      rw [processMessage_of_user md5 (by simp [huser])]
      refine (Outcome.ensures_emit h (by simp)).andThen fun _ _ => ?_
      exact h.onMessage hsize hget (by simp [huser]) hfits (hle.trans hlength) hpermitted
  | none =>
      simp only [Permits, huser] at hpermitted
      simp only [huser, Option.isSome_none, Bool.false_eq_true, if_false] at hlength
      rw [processMessage_of_none md5 huser]
      refine (Outcome.ensures_emit h (by simp)).andThen fun _ _ => ?_
      cases message with
      | authenticationRequest request =>
          exact h.authenticate md5 hget huser (hle.trans hlength)
      | _ => cases hpermitted

/-- **An acceptable chunk is survived.** -/
theorem Healthy.receive (h : server.Healthy names frames)
    (hsize : names + frames + 2 ^ 12 < 2 ^ 31) {fd : Fd} {interactor : Interactor}
    (hget : server.interactors[fd]? = some interactor) {buf : Bytes}
    (hbuf : server.Acceptable names frames fd buf) :
    Survives names frames (server.receive md5 fd buf) := by
  obtain ⟨hretained, hframes⟩ := hbuf interactor hget
  have hfits := h.fits fd interactor hget
  obtain ⟨reader', hwrite', hlen, -⟩ := FrameReader.write_spec hretained hfits.lenFits
  have hdrained : (server.withInteractor fd (interactor.drained reader')).Healthy names frames :=
    h.withInteractor hget rfl ⟨hlen, rfl, hfits.user, hfits.host, hfits.id⟩ fun huser => huser
  rcases receive_cases md5 hget hfits.frames buf with ⟨fault, hwrite, -⟩ |
    ⟨hasFrame, reader, hwrite, hcase⟩
  · rw [hwrite'] at hwrite
    cases hwrite
  · obtain ⟨-, rfl⟩ := Prod.mk.inj (Except.ok.inj (hwrite'.symm.trans hwrite))
    rcases hcase with ⟨-, heq⟩ | ⟨frame, hframe, heq⟩
    · rw [heq]
      exact Outcome.ensures_done hdrained
    · have hmade : frame ∈ interactor.reader.framesOf [buf] := by
        rw [FrameReader.framesOf, hwrite']
        simp [hframe]
      obtain ⟨hlength, hformed, hpermits⟩ := hframes frame hmade
      rw [heq]
      exact hdrained.processFrame md5 hsize (get_withInteractor _ _ _) hlength hformed hpermits

theorem Healthy.onRead (h : server.Healthy names frames)
    (hsize : names + frames + 2 ^ 12 < 2 ^ 31) {fd : Fd} {bufs : List Bytes}
    (hbufs : Outcome.Meets (ServerState.receive md5 fd) (Acceptable names frames fd) bufs server) :
    Survives names frames (server.onRead md5 fd bufs) := by
  unfold ServerState.onRead
  split
  · exact Outcome.ensures_done h
  · next interactor hget =>
    -- The interactor is there throughout.
    have hround : ∀ buf (s : ServerState ρ),
        (s.Healthy names frames ∧ ∃ i, s.interactors[fd]? = some i) →
        s.Acceptable names frames fd buf →
          (s.receive md5 fd buf).Ensures
            (fun s => s.Healthy names frames ∧ ∃ i, s.interactors[fd]? = some i)
            (fun _ => True) Caught := by
      rintro buf s ⟨hs, i, hi⟩ hbuf
      have hsurvives := hs.receive md5 hsize hi hbuf
      obtain ⟨reader, user, hstate, -⟩ := interactor_receive md5 hi (hs.fits fd i hi).frames buf
      exact ⟨⟨hsurvives.state, _, hstate⟩, hsurvives.events, hsurvives.fault⟩
    exact (hbufs.ensures hround ⟨h, interactor, hget⟩).mono (fun _ hs => hs.1) (fun _ h => h)
      fun _ h => h

end

end ServerState

end SquawkBus.Server
