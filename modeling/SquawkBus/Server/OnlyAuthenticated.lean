import SquawkBus.Server.Healthy
import SquawkBus.Server.Receive
import SquawkBus.Server.UnicastDelivery

/-!
# Only authenticated clients reach the hub

The hub asks interactors for their user without looking whether there is one. It may, as long as the
interactors in its tables are authenticated ones: an interactor reaches the hub only when its user
is set, and the user stays set. What the tables hold is an address, though, and an address that a
departed client has left there may be that of the next interactor made. So the invariant, `Admitted`,
is kept by every callback except the opening of a connection whose interactor is made at such an
address.
-/

namespace SquawkBus.Server

open SquawkBus.Io SquawkBus.Messages SquawkBus.Serialization

variable {ρ : Type} [RegexEngine ρ]

/-! ## The departure of a stranger -/

namespace Hub

variable {identify : Ptr → Identity} {hub : Hub ρ} {i : Ptr}

theorem lacks_new (am : AuthorizationManager ρ) (i : Ptr) : (new am).Lacks i where
  subscriptions := ⟨fun t => by simp [new, SubscriptionManager.empty],
    by simp [new, SubscriptionManager.empty]⟩
  listeners := ⟨fun p => by simp [new, NotificationManager.empty],
    by simp [new, NotificationManager.empty]⟩
  publishers := ⟨fun t => Index.not_has_empty t i, by simp [new, PublisherManager.new]⟩
  clients id := by simp [new]

/-- **The disconnect of an interactor the hub lacks** goes unnoticed. -/
theorem Lacks.disconnected (h : hub.Lacks i) :
    hub.step identify (.disconnected i) =
      .emit { hub with interactors := hub.interactors.erase (identify i).id } [.str i, .id i] := by
  have hsubscriptions : hub.subscriptionManager.onInteractorClosed i =
      (hub.subscriptionManager, []) := by
    have hentry : hub.subscriptionManager.subscriberTopics[i]? = none := by
      simpa using h.subscriptions.entry
    unfold SubscriptionManager.onInteractorClosed SubscriptionManager.removeInteractor
    rw [hentry]
  have hlisteners : hub.notificationManager.onInteractorClosed i = hub.notificationManager := by
    have hentry : hub.notificationManager.listenerTopicPatterns[i]? = none := by
      simpa using h.listeners.entry
    unfold NotificationManager.onInteractorClosed
    rw [hentry]
  have hpublishers : ∀ sm, hub.publisherManager.onInteractorClosed identify i sm =
      (hub.publisherManager, []) := by
    intro sm
    have hentry : hub.publisherManager.publisherTopics[i]? = none := by
      simpa using h.publishers.publisherTopics
    unfold PublisherManager.onInteractorClosed
    rw [hentry]
  show hub.onDisconnected identify i = _
  simp only [onDisconnected, hsubscriptions, hlisteners, hpublishers]
  rfl

end Hub

namespace ServerState

/-! ## The calls of the hub in a callback -/

variable (md5 : Bytes → Bytes)

/-- `P` holds of the call of `Hub::on_message` that the next frame leads to, if it leads to one. -/
def EachFrameCall (P : ServerState ρ → HubStep ρ → Prop) (fd : Fd) (server : ServerState ρ) : Prop :=
  ∀ interactor frame reader message rest, server.interactors[fd]? = some interactor →
    interactor.reader.read = .ok (frame, reader) → Message.deserialize frame = .ok (message, rest) →
      interactor.user.isSome →
        P (server.withInteractor fd { interactor with reader }) (.message interactor.address message)

/-- `P` holds of each call of the hub that receiving a chunk leads to. -/
def EachChunkCall (P : ServerState ρ → HubStep ρ → Prop) (fd : Fd) (server : ServerState ρ)
    (buf : Bytes) : Prop :=
  ∀ interactor hasFrame reader, server.interactors[fd]? = some interactor →
    interactor.reader.write buf = .ok (hasFrame, reader) →
      Outcome.Meets (fun _ server => receiveFrame md5 fd server)
        (fun server _ => EachFrameCall P fd server) reader.frames
        (server.withInteractor fd { interactor with reader })

/-- **`P` holds of each call of the hub that the callback makes**, in the state that makes it. -/
def EachHubCall (P : ServerState ρ → HubStep ρ → Prop) (server : ServerState ρ) :
    Callback ρ → Prop
  | .interrupt configuration =>
      ∀ manager, server.authenticationManager.load configuration.passwords = .ok manager →
        P { server with authenticationManager := manager } (.reload configuration.authorizations)
  | .opened _ => True
  | .read fd bufs =>
      (server.interactors[fd]?).isSome →
        Outcome.Meets (receive md5 fd) (EachChunkCall md5 P fd) bufs server
  | .closed fd =>
      ∀ interactor, server.interactors[fd]? = some interactor →
        P server (.disconnected interactor.address)

/-- The step of the hub calls `user()` only on interactors that are authenticated. -/
def AsksUsers (server : ServerState ρ) (step : HubStep ρ) : Prop :=
  ∀ i, Call.user i ∈ (server.hub.step server.identify step).events →
    ∀ (fd : Fd) interactor, server.interactors[fd]? = some interactor →
      interactor.address = i → interactor.user.isSome

/-- **Only authenticated clients reach the hub** in a run of callbacks: no interactor without a user
is in a table of the hub, users stay set, the hub asks no interactor for a user it has not, and the
disconnect of a connection that never authenticated sends nothing and changes no table. -/
structure OnlyAuthenticated (server : ServerState ρ) (callbacks : List (Callback ρ)) : Prop where
  held : ∀ pre, pre <+: callbacks → ∀ (fd : Fd) interactor,
    (server.after md5 pre).interactors[fd]? = some interactor → interactor.user = none →
      (server.after md5 pre).hub.Lacks interactor.address
  kept : ∀ pre callback, pre ++ [callback] <+: callbacks → ∀ (fd : Fd) interactor interactor',
    (server.after md5 pre).interactors[fd]? = some interactor → interactor.user.isSome →
      (server.after md5 (pre ++ [callback])).interactors[fd]? = some interactor' →
        interactor'.user = interactor.user
  asked : ∀ pre callback, pre ++ [callback] <+: callbacks →
    EachHubCall md5 AsksUsers (server.after md5 pre) callback
  stranger : ∀ pre (fd : Fd) interactor, pre ++ [.closed fd] <+: callbacks →
    (server.after md5 pre).interactors[fd]? = some interactor → interactor.user = none →
      ((server.after md5 pre).callback md5 (.closed fd)).events = [.closed fd] ∧
        (server.after md5 (pre ++ [.closed fd])).hub = (server.after md5 pre).hub

/-- The interactor of a new connection is made at an address that no other interactor has, and that
the hub does not have in its tables either. -/
def NewAddress (server : ServerState ρ) : Callback ρ → Prop
  | .opened client =>
      (∀ (fd : Fd) interactor, server.interactors[fd]? = some interactor →
        interactor.address ≠ client.address) ∧ server.hub.Lacks client.address
  | _ => True

/-! ## The invariant -/

/-- Interactors without a user are unknown to the hub. -/
structure Admitted (server : ServerState ρ) : Prop where
  strangers : ∀ (fd : Fd) interactor, server.interactors[fd]? = some interactor →
    interactor.user = none → server.hub.Lacks interactor.address
  addresses : ∀ (fd fd' : Fd) interactor interactor', server.interactors[fd]? = some interactor →
    server.interactors[fd']? = some interactor' → interactor.address = interactor'.address → fd = fd'
  clients : server.hub.interactors = ∅

variable {server server' : ServerState ρ} {fd : Fd} {interactor : Interactor}

theorem admitted_new (handlers : OrdMap Fd Handler) (authenticationManager : AuthenticationManager)
    (authorizationManager : AuthorizationManager ρ) :
    (new handlers authenticationManager authorizationManager).Admitted where
  strangers fd interactor hget := by simp [new] at hget
  addresses fd fd' interactor interactor' hget := by simp [new] at hget
  clients := rfl

theorem Admitted.congr (h : server.Admitted) (hinteractors : server'.interactors = server.interactors)
    (hhub : server'.hub = server.hub) : server'.Admitted where
  strangers := by rw [hinteractors, hhub]; exact h.strangers
  addresses := by rw [hinteractors]; exact h.addresses
  clients := by rw [hhub]; exact h.clients

/-- An interactor may change, but for its address and the loss of its user. -/
theorem Admitted.withInteractor (h : server.Admitted) {interactor' : Interactor}
    (hget : server.interactors[fd]? = some interactor)
    (haddress : interactor'.address = interactor.address)
    (huser : interactor'.user = none → interactor.user = none) :
    (server.withInteractor fd interactor').Admitted := by
  have hwas : ∀ (fd' : Fd) x, (server.withInteractor fd interactor').interactors[fd']? = some x →
      ∃ y, server.interactors[fd']? = some y ∧ x.address = y.address ∧
        (x.user = none → y.user = none) := by
    intro fd' x hx
    rcases OrdMap.get_of_insert hx with ⟨rfl, rfl⟩ | ⟨-, hx⟩
    · exact ⟨interactor, hget, haddress, huser⟩
    · exact ⟨x, hx, rfl, id⟩
  refine ⟨fun fd' x hx hnone => ?_, fun fd' fd'' x x' hx hx' hsame => ?_, h.clients⟩
  · obtain ⟨y, hy, heq, hnone'⟩ := hwas fd' x hx
    rw [heq]
    exact h.strangers fd' y hy (hnone' hnone)
  · obtain ⟨y, hy, heq, -⟩ := hwas fd' x hx
    obtain ⟨y', hy', heq', -⟩ := hwas fd'' x' hx'
    exact h.addresses fd' fd'' y y' hy hy' (by rw [← heq, ← heq', hsame])

/-- The step is not about an interactor without a user. -/
def ByUser (server : ServerState ρ) (step : HubStep ρ) : Prop :=
  ∀ (fd : Fd) interactor, server.interactors[fd]? = some interactor → interactor.user = none →
    step.interactor? ≠ some interactor.address

/-- Steps about an authenticated interactor are. -/
theorem Admitted.byUser (h : server.Admitted) (hget : server.interactors[fd]? = some interactor)
    (huser : interactor.user.isSome) {step : HubStep ρ}
    (hstep : step.interactor? = some interactor.address) : server.ByUser step := by
  intro fd' interactor' hget' hnone heq
  have haddress : interactor.address = interactor'.address := Option.some.inj (hstep.symm.trans heq)
  obtain rfl := h.addresses fd fd' interactor interactor' hget hget' haddress
  obtain rfl := Option.some.inj (hget.symm.trans hget')
  rw [hnone] at huser
  cases huser

/-- **The hub asks authenticated interactors only.** -/
theorem Admitted.asksUsers (h : server.Admitted) {step : HubStep ρ} (hstep : server.ByUser step) :
    server.AsksUsers step := by
  rintro _ hcall fd interactor hget rfl
  by_contra hnone
  have hnone : interactor.user = none := by simpa using hnone
  rcases (Hub.step_calls hcall).1 with hself | hknows
  · exact hstep fd interactor hget hnone hself
  · exact (h.strangers fd interactor hget hnone).not_knows hknows

/-- A step of the hub that is not about a stranger keeps the strangers out. -/
theorem Admitted.onHub (h : server.Admitted) {step : HubStep ρ} (hstep : server.ByUser step)
    (hconnected : ∀ i, step ≠ .connected i) : (server.onHub step).state.Admitted := by
  have hqueued := (server.ensures_onHub step).state
  refine ⟨fun fd interactor hget hnone => ?_, ?_, ?_⟩
  · rw [hqueued.interactors] at hget
    rw [hqueued.hub]
    exact (h.strangers fd interactor hget hnone).step (hstep fd interactor hget hnone)
  · rw [hqueued.interactors]
    exact h.addresses
  · rw [hqueued.hub]
    exact Hub.interactors_step h.clients hconnected

/-! ## Receiving -/

theorem Admitted.authenticate (h : server.Admitted)
    (hget : server.interactors[fd]? = some interactor) (hnone : interactor.user = none)
    (message : Message) :
    (server.authenticate md5 fd interactor message).state.Admitted :=
  authenticate_keeps md5 h (fun _ => h.withInteractor hget rfl fun _ => hnone)
    (fun _ hs => hs.congr (by simp) (by simp)) (fun _ hs => hs.congr (by simp) (by simp)) message

theorem Admitted.processMessage (h : server.Admitted)
    (hget : server.interactors[fd]? = some interactor) (message : Message) :
    (server.processMessage md5 fd interactor message).state.Admitted := by
  cases huser : interactor.user with
  | none =>
      rw [processMessage_of_none md5 huser, Outcome.andThen_of_ok rfl]
      exact h.authenticate md5 hget huser message
  | some user =>
      have hsome : interactor.user.isSome := by simp [huser]
      rw [processMessage_of_user md5 hsome, Outcome.andThen_of_ok rfl]
      exact h.onHub (h.byUser hget hsome rfl) (by simp)

theorem Admitted.receiveFrame (h : server.Admitted) (fd : Fd) :
    (server.receiveFrame md5 fd).state.Admitted :=
  receiveFrame_keeps md5 (fun _ _ _ hs hget => hs.withInteractor hget rfl id)
    (fun _ _ message hs hget => hs.processMessage md5 hget message) h

/-- A frame of an authenticated connection makes a call of the hub that asks users only. -/
theorem Admitted.eachFrameCall (h : server.Admitted) (fd : Fd) :
    EachFrameCall AsksUsers fd server := by
  intro interactor frame reader message rest hget _ _ huser
  have htaken : (server.withInteractor fd { interactor with reader }).Admitted :=
    h.withInteractor hget rfl id
  exact htaken.asksUsers (htaken.byUser (get_withInteractor _ _ _) huser rfl)

theorem Admitted.eachChunkCall (h : server.Admitted) (fd : Fd) (buf : Bytes) :
    EachChunkCall md5 AsksUsers fd server buf := by
  intro interactor hasFrame reader hget _
  have htaken : (server.withInteractor fd { interactor with reader }).Admitted :=
    h.withInteractor hget rfl id
  exact Outcome.meets_of_invariant (fun s _ hs => hs.eachFrameCall fd)
    (fun s _ hs => hs.receiveFrame md5 fd) htaken _

theorem Admitted.receive (h : server.Admitted) (fd : Fd) (buf : Bytes) :
    (server.receive md5 fd buf).state.Admitted :=
  receive_keeps md5 (fun _ _ _ hs hget => hs.withInteractor hget rfl id)
    (fun _ _ message hs hget => hs.processMessage md5 hget message) h buf

theorem Admitted.onRead (h : server.Admitted) (fd : Fd) (bufs : List Bytes) :
    (server.onRead md5 fd bufs).state.Admitted :=
  onRead_keeps md5 (fun _ _ _ hs hget => hs.withInteractor hget rfl id)
    (fun _ _ message hs hget => hs.processMessage md5 hget message) h bufs

/-! ## The other callbacks -/

theorem Admitted.onInterrupt (h : server.Admitted) (configuration : Configuration ρ) :
    (server.onInterrupt configuration).state.Admitted := by
  refine onInterrupt_keeps h fun manager => ?_
  have hloaded : Admitted { server with authenticationManager := manager } := h.congr rfl rfl
  exact hloaded.onHub (fun _ _ _ _ heq => by cases heq) (by simp)

theorem Admitted.onOpen (h : server.Admitted) {client : Client}
    (hnew : server.NewAddress (.opened client)) : (server.onOpen client).state.Admitted := by
  obtain ⟨hlive, hlacks⟩ := hnew
  refine ⟨fun fd x hx hnone => ?_, fun fd fd' x x' hx hx' hsame => ?_, h.clients⟩
  · rcases get_of_onOpen hx with ⟨-, -, rfl⟩ | hget
    · exact hlacks
    · exact h.strangers fd x hget hnone
  · rcases get_of_onOpen hx with ⟨rfl, -, rfl⟩ | hget <;>
      rcases get_of_onOpen hx' with ⟨rfl, -, rfl⟩ | hget'
    · rfl
    · exact absurd hsame.symm (hlive fd' x' hget')
    · exact absurd hsame (hlive fd x hget)
    · exact h.addresses fd fd' x x' hget hget' hsame

/-- **A connection that never authenticated leaves without a word.** -/
theorem Admitted.onClose_of_stranger (h : server.Admitted)
    (hget : server.interactors[fd]? = some interactor) (hnone : interactor.user = none) :
    server.onClose fd =
      .emit { server with interactors := server.interactors.erase fd } [.closed fd] := by
  have hgone : server.hub.step server.identify (.disconnected interactor.address) =
      .emit server.hub [.str interactor.address, .id interactor.address] := by
    have hsame : server.hub.interactors.erase (server.identify interactor.address).id =
        server.hub.interactors := by
      rw [h.clients]
      exact Std.ExtTreeMap.erase_empty
    rw [(h.strangers fd interactor hget hnone).disconnected, hsame]
  obtain ⟨found, hfound⟩ := interactorAt_of_get hget
  have hquiet : server.onHub (.disconnected interactor.address) = .done server := by
    have hstr : server.perform (.str interactor.address) = .done server := by
      simp only [perform, Call.interactor, hfound]
    have hid : server.perform (.id interactor.address) = .done server := by
      simp only [perform, Call.interactor, hfound]
    unfold ServerState.onHub
    rw [hgone]
    simp only [Outcome.emit_events, Outcome.emit_state, Outcome.emit_fault, Outcome.forEach_cons,
      Outcome.forEach_nil, hstr, hid, Outcome.done_andThen]
  unfold ServerState.onClose
  rw [hget]
  simp only [hquiet, Outcome.done_andThen]

theorem Admitted.onClose (h : server.Admitted) (fd : Fd) : (server.onClose fd).state.Admitted := by
  have herased : ∀ server : ServerState ρ, server.Admitted →
      Admitted { server with interactors := server.interactors.erase fd } := by
    intro server h
    have hwas : ∀ (fd' : Fd) x, (server.interactors.erase fd)[fd']? = some x →
        server.interactors[fd']? = some x := fun fd' x hx => (OrdMap.get_of_erase hx).2
    exact ⟨fun fd' x hx => h.strangers fd' x (hwas fd' x hx),
      fun fd' fd'' x x' hx hx' => h.addresses fd' fd'' x x' (hwas fd' x hx) (hwas fd'' x' hx'),
      h.clients⟩
  by_cases hstranger : ∃ interactor, server.interactors[fd]? = some interactor ∧
      interactor.user = none
  · obtain ⟨interactor, hget, hnone⟩ := hstranger
    rw [h.onClose_of_stranger hget hnone]
    exact herased server h
  · refine onClose_keeps h (fun interactor hget => ?_) herased
    have huser : interactor.user.isSome := by
      by_contra hnone
      exact hstranger ⟨interactor, hget, by simpa using hnone⟩
    exact h.onHub (h.byUser hget huser rfl) (by simp)

/-- Every callback keeps the strangers out, provided new interactors are made at new addresses. -/
theorem Admitted.callback (h : server.Admitted) {callback : Callback ρ}
    (hnew : server.NewAddress callback) : (server.callback md5 callback).state.Admitted := by
  cases callback with
  | interrupt configuration => exact h.onInterrupt configuration
  | opened client => exact h.onOpen hnew
  | read fd bufs => exact h.onRead md5 fd bufs
  | closed fd => exact h.onClose fd

theorem Admitted.eachHubCall (h : server.Admitted) (callback : Callback ρ) :
    EachHubCall md5 AsksUsers server callback := by
  cases callback with
  | interrupt configuration =>
      intro manager _
      have hloaded : Admitted { server with authenticationManager := manager } := h.congr rfl rfl
      exact hloaded.asksUsers fun _ _ _ _ heq => by cases heq
  | opened client => trivial
  | read fd bufs =>
      exact fun _ => Outcome.meets_of_invariant (fun s buf hs => hs.eachChunkCall md5 fd buf)
        (fun s buf hs => hs.receive md5 fd buf) h bufs
  | closed fd =>
      intro interactor hget
      cases huser : interactor.user with
      | some user => exact h.asksUsers (h.byUser hget (by simp [huser]) rfl)
      | none =>
          intro i hcall
          rw [(h.strangers fd interactor hget huser).disconnected] at hcall
          simp at hcall

/-! ## Users stay set -/

/-- The interactor of `fd` has the user. -/
def HasUser (server : ServerState ρ) (fd : Fd) (user : Bytes) : Prop :=
  ∃ interactor, server.interactors[fd]? = some interactor ∧ interactor.user = some user

variable {user : Bytes}

theorem HasUser.withInteractor (h : server.HasUser fd user) {fd' : Fd}
    (hget : server.interactors[fd']? = some interactor) (reader : FrameReader) :
    (server.withInteractor fd' { interactor with reader }).HasUser fd user := by
  obtain ⟨interactor', hget', huser⟩ := h
  by_cases hfd : fd' = fd
  · subst hfd
    obtain rfl := Option.some.inj (hget.symm.trans hget')
    exact ⟨_, get_withInteractor _ _ _, huser⟩
  · exact ⟨interactor', by rwa [OrdMap.get_insert, if_neg hfd], huser⟩

theorem HasUser.processMessage (h : server.HasUser fd user) {fd' : Fd}
    (hget : server.interactors[fd']? = some interactor) (message : Message) :
    (server.processMessage md5 fd' interactor message).state.HasUser fd user := by
  obtain ⟨interactor', hget', huser⟩ := h
  by_cases hfd : fd = fd'
  · subst hfd
    obtain rfl := Option.some.inj (hget.symm.trans hget')
    obtain ⟨user', hstate, hkept⟩ := interactor_processMessage md5 hget message
    have hsame : user' = interactor.user := hkept (by simp [huser])
    exact ⟨_, hstate, hsame.trans huser⟩
  · refine ⟨interactor', ?_, huser⟩
    rw [(server.serves_processMessage md5 fd' interactor message).state.interactors fd hfd]
    exact hget'

/-- Only the closing of the connection takes a user away, with its interactor. -/
theorem HasUser.callback (h : server.HasUser fd user) (callback : Callback ρ)
    {interactor' : Interactor}
    (hget' : (server.callback md5 callback).state.interactors[fd]? = some interactor') :
    interactor'.user = some user := by
  have hsame : (server.callback md5 callback).state.HasUser fd user →
      interactor'.user = some user := by
    rintro ⟨interactor, hget, huser⟩
    rw [hget] at hget'
    cases hget'
    exact huser
  cases callback with
  | interrupt configuration =>
      refine hsame ?_
      refine onInterrupt_keeps (P := fun s : ServerState ρ => s.HasUser fd user) h fun manager => ?_
      unfold HasUser
      rw [(ensures_onHub _ _).state.interactors]
      exact h
  | opened client =>
      refine hsame ?_
      obtain ⟨interactor, hget, huser⟩ := h
      exact ⟨interactor, get_onOpen_of_get hget, huser⟩
  | read fd' bufs =>
      refine hsame ?_
      exact onRead_keeps md5 (P := fun s : ServerState ρ => s.HasUser fd user)
        (fun _ _ reader hs hget => hs.withInteractor hget reader)
        (fun _ _ message hs hget => hs.processMessage md5 hget message) h bufs
  | closed fd' =>
      -- What is left at the end was there before.
      have hleft : server.interactors[fd]? = some interactor' := get_of_onClose hget'
      obtain ⟨interactor, hget, huser⟩ := h
      rw [hget] at hleft
      cases hleft
      exact huser

/-! ## Runs -/

theorem after_snoc (server : ServerState ρ) (pre : List (Callback ρ)) (callback : Callback ρ) :
    server.after md5 (pre ++ [callback]) =
      ((server.after md5 pre).callback md5 callback).state := by
  rw [after, Outcome.runState_append]
  rfl

/-- **Only authenticated clients reach the hub**, in every run in which no interactor is made at an
address that the hub has in its tables. -/
theorem onlyAuthenticated_of_newAddresses (handlers : OrdMap Fd Handler)
    (authenticationManager : AuthenticationManager)
    (authorizationManager : AuthorizationManager ρ) (callbacks : List (Callback ρ))
    (hnew : Run.Meets (fun server callback => (server.callback md5 callback).state) NewAddress
      (new handlers authenticationManager authorizationManager) callbacks) :
    (new handlers authenticationManager authorizationManager).OnlyAuthenticated md5 callbacks := by
  have hadmitted : ∀ pre, pre <+: callbacks →
      ((new handlers authenticationManager authorizationManager).after md5 pre).Admitted :=
    fun pre hpre => Run.invariant (fun _ _ h hok => h.callback md5 hok) (admitted_new _ _ _)
      fun p callback hp => hnew p callback (hp.trans hpre)
  have hbefore : ∀ pre callback, pre ++ [callback] <+: callbacks → pre <+: callbacks :=
    fun pre callback h => (List.prefix_append pre [callback]).trans h
  refine ⟨fun pre hpre => (hadmitted pre hpre).strangers, ?_, ?_, ?_⟩
  · intro pre callback hpre fd interactor interactor' hget huser hget'
    obtain ⟨user, heq⟩ := Option.isSome_iff_exists.mp huser
    have huser' : HasUser _ fd user := ⟨interactor, hget, heq⟩
    rw [after_snoc] at hget'
    rw [heq]
    exact huser'.callback md5 callback hget'
  · intro pre callback hpre
    exact (hadmitted pre (hbefore pre callback hpre)).eachHubCall md5 callback
  · intro pre fd interactor hpre hget hnone
    have hclose := (hadmitted pre (hbefore pre _ hpre)).onClose_of_stranger hget hnone
    rw [after_snoc]
    show (onClose fd _).events = _ ∧ (onClose fd _).state.hub = _
    rw [hclose]
    exact ⟨rfl, rfl⟩

/-- A request on the wire, to subscribe to a topic or no longer to. -/
def subscription (isAdd : Bool) : Bytes := Message.wire (.subscriptionRequest ⟨ascii "A", isAdd⟩)

theorem onlyAuthenticated_of_two_clients :
    (new (ρ := PlainRegex) ∅ (.new none) (.new none [])).OnlyAuthenticated zeroDigest
      [.opened ⟨4, ascii "host", 100, ascii "P"⟩, .opened ⟨5, ascii "host", 101, ascii "R"⟩,
        .read 4 [login], .read 4 [subscription true], .closed 5, .closed 4] := by
  refine onlyAuthenticated_of_newAddresses zeroDigest ∅ (.new none) (.new none []) _ ?_
  have hfirst : NewAddress (new (ρ := PlainRegex) ∅ (.new none) (.new none []))
      (.opened ⟨4, ascii "host", 100, ascii "P"⟩) :=
    ⟨by simp [new], Hub.lacks_new _ _⟩
  have hsecond : NewAddress (onOpen ⟨4, ascii "host", 100, ascii "P"⟩
      (new (ρ := PlainRegex) ∅ (.new none) (.new none []))).state
      (.opened ⟨5, ascii "host", 101, ascii "R"⟩) := by
    refine ⟨fun fd interactor hget => ?_, Hub.lacks_new _ _⟩
    rcases get_of_onOpen hget with ⟨-, -, rfl⟩ | hold
    · decide
    · simp [new] at hold
  exact Run.meets_cons.mpr ⟨hfirst, Run.meets_cons.mpr ⟨hsecond, Run.meets_cons.mpr ⟨trivial,
    Run.meets_cons.mpr ⟨trivial, Run.meets_cons.mpr ⟨trivial, Run.meets_cons.mpr ⟨trivial,
      Run.meets_nil _ _ _⟩⟩⟩⟩⟩⟩

/-- Clients at the addresses 100 and 101 subscribe to a topic; the first unsubscribes and leaves.
The next connection is made at address 100, and is found among the subscribers. -/
theorem newcomer_held :
    ¬ (new (ρ := PlainRegex) ∅ (.new none) (.new none [])).OnlyAuthenticated zeroDigest
      [.opened ⟨4, ascii "host", 100, ascii "P"⟩, .opened ⟨5, ascii "host", 101, ascii "R"⟩,
        .read 4 [login], .read 5 [login], .read 4 [subscription true], .read 5 [subscription true],
        .read 4 [subscription false], .closed 4, .opened ⟨4, ascii "host", 100, ascii "N"⟩] := by
  intro h
  have hlacks := h.held _ (List.prefix_refl _) 4 ⟨100, 4, ascii "host", ascii "N", .empty, none⟩
    (by decide +kernel) rfl
  have hcell := hlacks.subscriptions.cells (ascii "A")
  revert hcell
  decide +kernel

end ServerState

end SquawkBus.Server
