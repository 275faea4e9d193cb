import SquawkBus.Server.Broadcast
import SquawkBus.Server.Healthy
import SquawkBus.Server.Reload

/-!
# The roll of the clients

Who has logged in at each descriptor and how many subscriptions are held there, kept by the events of the
server alone. The `Roll` is right in every run (`enrolled_loopSteps`): the interactors have these users,
and the hub knows them by these subscriptions, and nobody else. So whatever the hub calls can be carried
out.

This takes that subscriptions are given up only by those who hold them once and alone, since the
subscription manager loses count otherwise, and that no message processed is so long that what is made of
it could not be sent on.
-/

namespace SquawkBus.Server

open SquawkBus.Io SquawkBus.Messages SquawkBus.Serialization

/-! ## The roll -/

variable {ρ : Type} [RegexEngine ρ]

/-- Who has logged in at each descriptor, and how many subscriptions are held there. -/
structure Roll where
  users : Fd → Option Bytes
  subscriptions : Fd → Bytes → Nat

namespace Roll

/-- Nobody is there. -/
def new : Roll := ⟨fun _ => none, fun _ _ => 0⟩

/-- The entry that a request makes in the account of the subscriptions. -/
def entry (fd : Fd) (request : SubscriptionRequest) : Ledger.Op Fd Bytes :=
  if request.isAdd then .acquire fd request.topic else .release fd request.topic

/-- More has happened. -/
def note (roll : Roll) : ServerEvent → Roll
  | .opened fd => { roll with users := Function.update roll.users fd none }
  | .authenticated fd user => { roll with users := Function.update roll.users fd (some user) }
  | .handled fd (.subscriptionRequest request) =>
      { roll with subscriptions := Ledger.apply roll.subscriptions (entry fd request) }
  | .closed fd => { roll with subscriptions := Ledger.apply roll.subscriptions (.dropAll fd) }
  | _ => roll

/-- A message may be processed if it is no longer than `size`. A request to subscribe may be handled if the
count is an `int` afterwards, and one to unsubscribe for one who does not subscribe, or subscribes once
and alone. -/
def Permits (size : Nat) (roll : Roll) : ServerEvent → Prop
  | .processed _ message => message.encode.length ≤ size
  | .handled fd (.subscriptionRequest ⟨topic, true⟩) => roll.subscriptions fd topic + 1 < 2 ^ 31
  | .handled fd (.subscriptionRequest ⟨topic, false⟩) =>
      roll.subscriptions fd topic = 0 ∨
        (roll.subscriptions fd topic = 1 ∧ ∀ fd', fd ≠ fd' → roll.subscriptions fd' topic = 0)
  | _ => True

end Roll

/-! ### Permitted runs -/

/-- The roll after these events. -/
abbrev rollOf (past : List ServerEvent) : Roll := past.foldl Roll.note .new

/-- All these events were permitted when they happened. -/
abbrev Lawful (size : Nat) (past : List ServerEvent) : Prop :=
  Run.Meets Roll.note (Roll.Permits size) .new past

theorem Lawful.of_append {size : Nat} {past events : List ServerEvent}
    (h : Lawful size (past ++ events)) : Lawful size past :=
  fun pre event hpre => h pre event (hpre.trans (List.prefix_append past events))

/-- The last event was permitted. -/
theorem Lawful.last {size : Nat} {past events : List ServerEvent} {event : ServerEvent}
    (h : Lawful size (past ++ event :: events)) : (rollOf past).Permits size event :=
  h past event ⟨events, by simp⟩

namespace ServerState

/-! ## The server and the roll -/

/-- **The roll is right**: the users are those of the interactors, the subscriptions are those in the
tables of the hub, which knows nobody else, and all texts are short. -/
structure Enrolled (size : Nat) (server : ServerState ρ) (roll : Roll) : Prop where
  orderly : server.Orderly
  users : ∀ (fd : Fd) interactor, server.interactors[fd]? = some interactor →
    interactor.user = roll.users fd
  texts : ∀ (fd : Fd) interactor, server.interactors[fd]? = some interactor →
    (interactor.user.getD []).length ≤ size ∧ interactor.host.length ≤ 2 ^ 10 ∧
      interactor.id.length ≤ 2 ^ 10
  hub : server.hub.Consistent server.Member size
  accounts : ∃ balance, server.hub.subscriptionManager.Accounts balance ∧
    ∀ (fd : Fd) interactor, server.interactors[fd]? = some interactor →
      balance interactor.address = roll.subscriptions fd
  absent : ∀ fd : Fd, server.interactors[fd]? = none → roll.subscriptions fd = fun _ => 0

variable {size : Nat} {server server' : ServerState ρ} {fd : Fd} {interactor : Interactor} {roll : Roll}

theorem enrolled_new (handlers : OrdMap Fd Handler) (authenticationManager : AuthenticationManager)
    (authorizationManager : AuthorizationManager ρ) :
    (new handlers authenticationManager authorizationManager).Enrolled size .new where
  orderly := orderly_new _ _ _
  users fd interactor hget := by simp [new] at hget
  texts fd interactor hget := by simp [new] at hget
  hub := Hub.consistent_new authorizationManager
  accounts := ⟨_, SubscriptionManager.accounts_empty, fun fd interactor hget => by simp [new] at hget⟩
  absent _ _ := rfl

/-- Whether an address is that of a member depends on the interactors. -/
theorem member_congr (hinteractors : server'.interactors = server.interactors) :
    server'.Member = server.Member := by
  funext i
  unfold Member
  rw [hinteractors]

theorem Enrolled.congr (h : server.Enrolled size roll)
    (hinteractors : server'.interactors = server.interactors) (hhub : server'.hub = server.hub) :
    server'.Enrolled size roll where
  orderly := h.orderly.congr hinteractors hhub
  users := by rw [hinteractors]; exact h.users
  texts := by rw [hinteractors]; exact h.texts
  hub := by rw [hhub, member_congr hinteractors]; exact h.hub
  accounts := by rw [hinteractors, hhub]; exact h.accounts
  absent := by rw [hinteractors]; exact h.absent

/-- Who has a balance has logged in. -/
theorem Enrolled.member_of_balance (h : server.Enrolled size roll) {balance : Ptr → Bytes → Nat}
    (haccounts : server.hub.subscriptionManager.Accounts balance) {i : Ptr} {topic : Bytes}
    (hpos : 0 < balance i topic) : server.Member i :=
  (h.hub.subscriptions.topics i topic ((haccounts.topics i topic).mpr hpos)).1

/-- Who is no member has no balance. -/
theorem Enrolled.balance_of_stranger (h : server.Enrolled size roll) {balance : Ptr → Bytes → Nat}
    (haccounts : server.hub.subscriptionManager.Accounts balance) {i : Ptr}
    (hi : ¬ server.Member i) : balance i = fun _ => 0 := by
  funext topic
  by_contra hne
  exact hi (h.member_of_balance haccounts (Nat.pos_of_ne_zero hne))

/-- The interactor of a member is that at its descriptor. -/
theorem Enrolled.isSome_of_member (h : server.Enrolled size roll)
    (hget : server.interactors[fd]? = some interactor) (hmember : server.Member interactor.address) :
    interactor.user.isSome := by
  obtain ⟨fd', interactor', hget', haddress, huser⟩ := hmember
  obtain rfl := h.orderly.admitted.addresses fd' fd interactor' interactor hget' hget haddress
  obtain rfl := Option.some.inj (hget.symm.trans hget')
  exact huser

theorem Enrolled.identify (h : server.Enrolled size roll) (i : Ptr) :
    (server.identify i).Fits size := by
  unfold ServerState.identify
  split
  · exact ⟨Nat.zero_le _, Nat.zero_le _, Nat.zero_le _⟩
  · next interactor hat =>
    obtain ⟨-, fd, hget⟩ := get_of_interactorAt hat
    obtain ⟨huser, hhost, hid⟩ := h.texts fd interactor hget
    exact ⟨huser, hhost, hid⟩

/-- What the hub calls in a step about a member, or when one leaves, can be carried out. -/
theorem Enrolled.safe (h : server.Enrolled size roll) (hsize : size + size + 2 ^ 12 < 2 ^ 31)
    {step : HubStep ρ} (hmember : ∀ i, step.interactor? = some i → server.Member i)
    (hstep : ∀ i m, step = .message i m → m.Fits ∧ m.encode.length ≤ size) :
    ∀ call ∈ (server.hub.step server.identify step).events, server.Safe call :=
  safe_of_consistent h.hub (fun _ _ hget => h.orderly.interactorAt hget) h.identify hsize hmember hstep

/-! ## What the calls do to the roll -/

/-- A change of the interactor that keeps its address, and only adds to it. -/
theorem Enrolled.withInteractor (h : server.Enrolled size roll) {interactor' : Interactor}
    (horderly : (server.withInteractor fd interactor').Orderly)
    (hget : server.interactors[fd]? = some interactor) (haddress : interactor'.address = interactor.address)
    (huser : interactor.user.isSome → interactor'.user.isSome)
    (htexts : (interactor'.user.getD []).length ≤ size ∧ interactor'.host.length ≤ 2 ^ 10 ∧
      interactor'.id.length ≤ 2 ^ 10) :
    (server.withInteractor fd interactor').Enrolled size
      { roll with users := Function.update roll.users fd interactor'.user } := by
  have hcases : ∀ (fd' : Fd) x, (server.withInteractor fd interactor').interactors[fd']? = some x →
      (fd' = fd ∧ x = interactor') ∨ (fd' ≠ fd ∧ server.interactors[fd']? = some x) :=
    fun fd' x hx => OrdMap.get_of_insert hx
  refine ⟨horderly, fun fd' x hx => ?_, fun fd' x hx => ?_, h.hub.mono fun i hi =>
    hi.withInteractor hget haddress huser, ?_, fun fd' hnone => h.absent fd' ?_⟩
  · rcases hcases fd' x hx with ⟨rfl, rfl⟩ | ⟨hfd, hx⟩
    · exact (Function.update_self fd' x.user roll.users).symm
    · rw [h.users fd' x hx]
      exact (Function.update_of_ne hfd interactor'.user roll.users).symm
  · rcases hcases fd' x hx with ⟨rfl, rfl⟩ | ⟨-, hx⟩
    · exact htexts
    · exact h.texts fd' x hx
  · obtain ⟨balance, haccounts, hbalance⟩ := h.accounts
    refine ⟨balance, haccounts, fun fd' x hx => ?_⟩
    rcases hcases fd' x hx with ⟨rfl, rfl⟩ | ⟨-, hx⟩
    · rw [haddress]
      exact hbalance fd' interactor hget
    · exact hbalance fd' x hx
  · rw [OrdMap.get_insert] at hnone
    split at hnone
    · cases hnone
    · exact hnone

theorem Enrolled.withReader (h : server.Enrolled size roll)
    (hget : server.interactors[fd]? = some interactor) (reader : FrameReader) :
    (server.withInteractor fd { interactor with reader }).Enrolled size roll := by
  have htaken := h.withInteractor (h.orderly.withReader hget reader) hget rfl id
    (h.texts fd interactor hget)
  rwa [Function.update_eq_self_iff.mpr (h.users fd interactor hget)] at htaken

/-! ### Subscriptions -/

/-- What a request does to the balances of the addresses, it does to those of the descriptors. -/
theorem Enrolled.balance_entry (h : server.Enrolled size roll) {balance : Ptr → Bytes → Nat}
    (hbalance : ∀ (fd : Fd) interactor, server.interactors[fd]? = some interactor →
      balance interactor.address = roll.subscriptions fd)
    (hget : server.interactors[fd]? = some interactor) (request : SubscriptionRequest) {fd' : Fd}
    {interactor' : Interactor} (hget' : server.interactors[fd']? = some interactor') :
    Ledger.apply balance (SubscriptionOp.entry (.request interactor.address request))
        interactor'.address =
      Ledger.apply roll.subscriptions (Roll.entry fd request) fd' := by
  have hsame : interactor.address = interactor'.address ↔ fd = fd' := by
    constructor
    · exact h.orderly.admitted.addresses fd fd' interactor interactor' hget hget'
    · rintro rfl
      rw [Option.some.inj (hget.symm.trans hget')]
  obtain ⟨topic', isAdd⟩ := request
  funext topic
  cases isAdd with
  | true =>
      show Ledger.apply balance (.acquire interactor.address topic') _ topic =
        Ledger.apply roll.subscriptions (.acquire fd topic') fd' topic
      rw [Ledger.apply_acquire, Ledger.apply_acquire, hbalance fd' interactor' hget']
      exact if_congr (and_congr_left' hsame) rfl rfl
  | false =>
      show Ledger.apply balance (.release interactor.address topic') _ topic =
        Ledger.apply roll.subscriptions (.release fd topic') fd' topic
      rw [Ledger.apply_release, Ledger.apply_release, hbalance fd' interactor' hget']
      exact if_congr (and_congr_left' hsame) rfl rfl

/-- A permitted request to unsubscribe is one that the subscription manager gets right. -/
theorem Enrolled.removesLast (h : server.Enrolled size roll)
    (hget : server.interactors[fd]? = some interactor) {topic : Bytes}
    (hpermits : roll.Permits size (.handled fd (.subscriptionRequest ⟨topic, false⟩))) :
    server.hub.subscriptionManager.RemovesLast (.request interactor.address ⟨topic, false⟩) := by
  obtain ⟨balance, haccounts, hbalance⟩ := h.accounts
  have hown : balance interactor.address = roll.subscriptions fd := hbalance fd interactor hget
  refine SubscriptionManager.removesLast_iff.mpr ?_
  simp only [haccounts.cells, hown]
  rcases hpermits with hzero | ⟨hone, hothers⟩
  · exact .inl (by rw [hzero]; rfl)
  · refine .inr ⟨by rw [hone]; rfl, fun j hj => ?_⟩
    -- Who else has a balance is at another descriptor.
    have hnone : balance j topic = 0 := by
      by_contra hne
      obtain ⟨fd', interactor', hget', rfl, -⟩ :=
        h.member_of_balance haccounts (Nat.pos_of_ne_zero hne)
      have hfd : fd ≠ fd' := by
        rintro rfl
        exact hj (by rw [Option.some.inj (hget.symm.trans hget')])
      exact hne ((congrFun (hbalance fd' interactor' hget') topic).trans (hothers fd' hfd))
    rw [hnone]
    rfl

/-- Such a request does not make the hub lose track of the client. -/
theorem Enrolled.keepsSubscriber (h : server.Enrolled size roll)
    (hget : server.interactors[fd]? = some interactor) {message : Message}
    (hpermits : roll.Permits size (.handled fd message)) :
    server.hub.KeepsSubscriber interactor.address message := by
  cases message with
  | subscriptionRequest request =>
      obtain ⟨topic, isAdd⟩ := request
      rintro rfl subscribers hrow count hcount
      rcases h.removesLast hget hpermits rfl subscribers hrow with hnone | ⟨-, halone⟩
      · rw [hnone] at hcount
        cases hcount
      · exact .inr halone
  | _ => trivial

/-- **A request to subscribe** changes the tables as it changes the roll. -/
theorem Enrolled.accounts_subscription (h : server.Enrolled size roll)
    (hget : server.interactors[fd]? = some interactor) {request : SubscriptionRequest}
    (hpermits : roll.Permits size (.handled fd (.subscriptionRequest request))) :
    ∃ balance, (server.hub.subscriptionManager.onSubscription interactor.address request).1.Accounts
        balance ∧ ∀ (fd' : Fd) interactor', server.interactors[fd']? = some interactor' →
      balance interactor'.address = Ledger.apply roll.subscriptions (Roll.entry fd request) fd' := by
  obtain ⟨balance, haccounts, hbalance⟩ := h.accounts
  refine ⟨Ledger.apply balance (SubscriptionOp.entry (.request interactor.address request)), ?_,
    fun fd' interactor' hget' => h.balance_entry hbalance hget request hget'⟩
  obtain ⟨topic, isAdd⟩ := request
  cases isAdd with
  | true =>
      refine haccounts.add ?_
      rw [hbalance fd interactor hget]
      exact hpermits
  | false => exact haccounts.remove (h.removesLast hget hpermits)

/-- Where nobody is, nobody begins to subscribe. -/
theorem Enrolled.absent_entry (h : server.Enrolled size roll)
    (hget : server.interactors[fd]? = some interactor) (request : SubscriptionRequest) {fd' : Fd}
    (hnone : server.interactors[fd']? = none) :
    Ledger.apply roll.subscriptions (Roll.entry fd request) fd' = fun _ => 0 := by
  have hfd : fd ≠ fd' := by
    rintro rfl
    rw [hget] at hnone
    cases hnone
  obtain ⟨topic', isAdd⟩ := request
  funext topic
  cases isAdd with
  | true =>
      show Ledger.apply roll.subscriptions (.acquire fd topic') fd' topic = 0
      rw [Ledger.apply_acquire, if_neg fun heq => hfd heq.1, h.absent fd' hnone]
  | false =>
      show Ledger.apply roll.subscriptions (.release fd topic') fd' topic = 0
      rw [Ledger.apply_release, if_neg fun heq => hfd heq.1, h.absent fd' hnone]

/-! ### Messages -/

/-- **A message handled** leaves the roll right. -/
theorem Enrolled.onMessage (h : server.Enrolled size roll)
    (hget : server.interactors[fd]? = some interactor) (huser : interactor.user.isSome)
    {message : Message} (hlength : message.encode.length ≤ size)
    (hpermits : roll.Permits size (.handled fd message))
    (horderly : (server.onHub (.message interactor.address message)).state.Orderly) :
    (server.onHub (.message interactor.address message)).state.Enrolled size
      (roll.note (.handled fd message)) := by
  have hqueued := (ensures_onHub server (.message interactor.address message)).state
  have hmember : server.Member interactor.address := ⟨fd, interactor, hget, rfl, huser⟩
  have hconsistent := h.hub.message server.identify hmember hlength (h.keepsSubscriber hget hpermits)
  -- It is enough to look at the tables of the hub.
  have hstep : ∀ roll' : Roll, roll'.users = roll.users →
      (∃ balance, (server.hub.step server.identify
          (.message interactor.address message)).state.subscriptionManager.Accounts balance ∧
        ∀ (fd' : Fd) interactor', server.interactors[fd']? = some interactor' →
          balance interactor'.address = roll'.subscriptions fd') →
      (∀ fd' : Fd, server.interactors[fd']? = none → roll'.subscriptions fd' = fun _ => 0) →
      (server.onHub (.message interactor.address message)).state.Enrolled size roll' := by
    intro roll' husers haccounts habsent
    refine ⟨horderly, ?_, ?_, ?_, ?_, ?_⟩
    · rw [hqueued.interactors, husers]
      exact h.users
    · rw [hqueued.interactors]
      exact h.texts
    · rw [hqueued.hub, member_congr hqueued.interactors]
      exact hconsistent
    · rw [hqueued.interactors, hqueued.hub]
      exact haccounts
    · rw [hqueued.interactors]
      exact habsent
  cases message with
  | subscriptionRequest request =>
      exact hstep _ rfl (h.accounts_subscription hget hpermits) fun fd' => h.absent_entry hget request
  | _ => exact hstep roll rfl h.accounts h.absent

/-! ### Leaving and coming -/

/-- An interactor is erased when the hub knows it no longer. -/
theorem Enrolled.erase (h : server.Enrolled size roll)
    (hget : server.interactors[fd]? = some interactor) (horderly : server'.Orderly)
    (hinteractors : server'.interactors = server.interactors.erase fd)
    (hhub : server'.hub.Consistent (fun i => interactor.address ≠ i ∧ server.Member i) size)
    (haccounts : ∃ balance, server'.hub.subscriptionManager.Accounts
        (Ledger.apply balance (.dropAll interactor.address)) ∧
      ∀ (fd : Fd) interactor, server.interactors[fd]? = some interactor →
        balance interactor.address = roll.subscriptions fd) :
    server'.Enrolled size (roll.note (.closed fd)) := by
  have hcases : ∀ (fd' : Fd) x, server'.interactors[fd']? = some x →
      fd ≠ fd' ∧ server.interactors[fd']? = some x := by
    intro fd' x hx
    rw [hinteractors] at hx
    exact OrdMap.get_of_erase hx
  have hother : ∀ (fd' : Fd) x, fd ≠ fd' → server.interactors[fd']? = some x →
      interactor.address ≠ x.address := fun fd' x hfd hx haddress =>
    hfd (h.orderly.admitted.addresses fd fd' interactor x hget hx haddress)
  refine ⟨horderly, fun fd' x hx => h.users fd' x (hcases fd' x hx).2,
    fun fd' x hx => h.texts fd' x (hcases fd' x hx).2, hhub.mono fun i hi => ?_, ?_, fun fd' hnone => ?_⟩
  · obtain ⟨hne, fd', x, hx, rfl, hsome⟩ := hi
    have hfd : fd ≠ fd' := by
      rintro rfl
      exact hne (by rw [Option.some.inj (hget.symm.trans hx)])
    exact ⟨fd', x, by rw [hinteractors, OrdMap.get_erase, if_neg hfd]; exact hx, rfl, hsome⟩
  · obtain ⟨balance, haccounts, hbalance⟩ := haccounts
    refine ⟨_, haccounts, fun fd' x hx => ?_⟩
    obtain ⟨hfd, hx⟩ := hcases fd' x hx
    funext topic
    show _ = Ledger.apply roll.subscriptions (.dropAll fd) fd' topic
    rw [Ledger.apply_dropAll, Ledger.apply_dropAll, if_neg (hother fd' x hfd hx), if_neg hfd,
      hbalance fd' x hx]
  · funext topic
    show Ledger.apply roll.subscriptions (.dropAll fd) fd' topic = 0
    rw [Ledger.apply_dropAll]
    split
    · rfl
    · next hfd =>
      rw [hinteractors, OrdMap.get_erase, if_neg hfd] at hnone
      rw [h.absent fd' hnone]

/-- **A client that leaves** takes its subscriptions with it. -/
theorem Enrolled.onClose (h : server.Enrolled size roll) (hsize : size + size + 2 ^ 12 < 2 ^ 31)
    (hget : server.interactors[fd]? = some interactor) :
    (server.onClose fd).state.Enrolled size (roll.note (.closed fd)) ∧
      ∃ sent : List ServerEvent, (server.onClose fd).events = sent ++ [.closed fd] ∧
        (sent = [] ∨ sent = (server.onHub (.disconnected interactor.address)).events) := by
  have horderly := h.orderly.onClose fd
  obtain ⟨balance, haccounts, hbalance⟩ := h.accounts
  cases huser : interactor.user with
  | none =>
      have hstranger : ¬ server.Member interactor.address := by
        intro hmember
        have hsome := h.isSome_of_member hget hmember
        rw [huser] at hsome
        cases hsome
      have hclose := h.orderly.admitted.onClose_of_stranger hget huser
      refine ⟨h.erase hget horderly (by rw [hclose]; rfl) ?_ ⟨balance, ?_, hbalance⟩, [], ?_, .inl rfl⟩
      · rw [hclose]
        refine h.hub.mono fun i hi => ⟨?_, hi⟩
        rintro rfl
        exact hstranger hi
      · -- It has no subscriptions to take along.
        have hsame : Ledger.apply balance (.dropAll interactor.address) = balance := by
          funext i topic
          rw [Ledger.apply_dropAll]
          split
          · next heq => rw [← heq, h.balance_of_stranger haccounts hstranger]
          · rfl
        rw [hclose, hsame]
        exact haccounts
      · rw [hclose]
        rfl
  | some user =>
      have hsome : interactor.user.isSome := by simp [huser]
      have hmember : server.Member interactor.address := ⟨fd, interactor, hget, rfl, hsome⟩
      -- The hub tells others first, and the interactor is erased only if that returns.
      have hsafe : ∀ call ∈ (server.hub.step server.identify
          (.disconnected interactor.address)).events, server.Safe call :=
        h.safe hsize (fun i hi => Option.some.inj hi ▸ hmember) (by simp)
      have hhub := ensures_onHub_of_safe hsafe
      have hreturns : (server.onHub (.disconnected interactor.address)).fault = none :=
        returns_onHub_of_safe hsafe rfl
      have hclose : server.onClose fd = (server.onHub (.disconnected interactor.address)).andThen
          fun server => .emit { server with interactors := server.interactors.erase fd } [.closed fd] := by
        unfold ServerState.onClose
        rw [hget]
      rw [Outcome.andThen_of_ok hreturns] at hclose
      refine ⟨h.erase hget horderly ?_ ?_ ⟨balance, ?_, hbalance⟩,
        (server.onHub (.disconnected interactor.address)).events, ?_, .inr rfl⟩
      · rw [hclose]
        show (server.onHub (.disconnected interactor.address)).state.interactors.erase fd = _
        rw [hhub.state.interactors]
      · rw [hclose]
        show (server.onHub (.disconnected interactor.address)).state.hub.Consistent _ size
        rw [hhub.state.hub]
        exact h.hub.disconnected server.identify interactor.address
      · rw [hclose]
        show (server.onHub (.disconnected interactor.address)).state.hub.subscriptionManager.Accounts _
        rw [hhub.state.hub]
        exact haccounts.close interactor.address
      · rw [hclose]
        rfl

/-- **A client that comes** has not subscribed to anything. -/
theorem Enrolled.onOpen (h : server.Enrolled size roll) {client : Client}
    (hnew : server.interactors[client.fd]? = none ∧ server.NewAddress (.opened client))
    (hhost : client.host.length ≤ 2 ^ 10) (hid : client.id.length ≤ 2 ^ 10) :
    (server.onOpen client).state.Enrolled size (roll.note (.opened client.fd)) := by
  have hget := get_onOpen_of_new hnew.1
  have hcases : ∀ (fd : Fd) x, (server.onOpen client).state.interactors[fd]? = some x →
      (fd = client.fd ∧ x = ⟨client.address, client.fd, client.host, client.id, .empty, none⟩) ∨
        (fd ≠ client.fd ∧ server.interactors[fd]? = some x) := by
    intro fd x hx
    rw [hget] at hx
    split at hx
    · next hfd => exact .inl ⟨hfd.symm, (Option.some.inj hx).symm⟩
    · next hfd => exact .inr ⟨Ne.symm hfd, hx⟩
  refine ⟨h.orderly.onOpen hnew.2, fun fd x hx => ?_, fun fd x hx => ?_, h.hub.mono fun i hi => ?_, ?_,
    fun fd hnone => h.absent fd ?_⟩
  · rcases hcases fd x hx with ⟨rfl, rfl⟩ | ⟨hfd, hx⟩
    · exact (Function.update_self client.fd none roll.users).symm
    · rw [h.users fd x hx]
      exact (Function.update_of_ne hfd none roll.users).symm
  · rcases hcases fd x hx with ⟨rfl, rfl⟩ | ⟨-, hx⟩
    · exact ⟨Nat.zero_le _, hhost, hid⟩
    · exact h.texts fd x hx
  · obtain ⟨fd, x, hx, hrest⟩ := hi
    exact ⟨fd, x, get_onOpen_of_get hx, hrest⟩
  · obtain ⟨balance, haccounts, hbalance⟩ := h.accounts
    refine ⟨balance, haccounts, fun fd x hx => ?_⟩
    rcases hcases fd x hx with ⟨rfl, rfl⟩ | ⟨-, hx⟩
    · -- Nobody has been at this address.
      have hstranger : ¬ server.Member client.address := by
        rintro ⟨fd, x, hx, haddress, -⟩
        exact hnew.2.1 fd x hx haddress
      exact (h.balance_of_stranger haccounts hstranger).trans (h.absent client.fd hnew.1).symm
    · exact hbalance fd x hx
  · rw [hget] at hnone
    split at hnone
    · cases hnone
    · exact hnone

/-! ### Reloading -/

theorem Enrolled.onInterrupt (h : server.Enrolled size roll) (configuration : Configuration ρ) :
    (server.onInterrupt configuration).state.Enrolled size roll := by
  have horderly := h.orderly.onInterrupt configuration
  unfold ServerState.onInterrupt at horderly ⊢
  split
  · exact h
  · next manager hload =>
    rw [hload] at horderly
    have hloaded : Enrolled size { server with authenticationManager := manager } roll := h.congr rfl rfl
    have hqueued := (ensures_onHub { server with authenticationManager := manager }
      (.reload configuration.authorizations)).state
    have hconsistent := hloaded.hub.reload
      (ServerState.identify { server with authenticationManager := manager }) configuration.authorizations
    have hsame : (server.hub.reload configuration.authorizations).state.subscriptionManager =
        server.hub.subscriptionManager := by
      unfold Hub.reload
      split <;> rfl
    refine ⟨horderly, ?_, ?_, ?_, ?_, ?_⟩
    · rw [hqueued.interactors]
      exact h.users
    · rw [hqueued.interactors]
      exact h.texts
    · rw [hqueued.hub, member_congr hqueued.interactors]
      exact hconsistent
    · -- Nobody's subscriptions depend on who is entitled to what.
      rw [hqueued.interactors, hqueued.hub]
      obtain ⟨balance, haccounts, hbalance⟩ := h.accounts
      refine ⟨balance, ?_, hbalance⟩
      show (server.hub.reload configuration.authorizations).state.subscriptionManager.Accounts balance
      rw [hsame]
      exact haccounts
    · rw [hqueued.interactors]
      exact h.absent

/-! ## The roll along a run -/

/-- The roll is right as long as all was permitted. -/
abbrev EnrolledIf (size : Nat) (server : ServerState ρ) (past : List ServerEvent) : Prop :=
  Lawful size past → server.Enrolled size (rollOf past)

theorem rollOf_append (past events : List ServerEvent) :
    rollOf (past ++ events) = events.foldl Roll.note (rollOf past) := List.foldl_append

/-- When messages have been sent, the roll is as before. -/
theorem foldl_note_sent {events : List ServerEvent}
    (hsent : ∀ event ∈ events, ∃ fd message, event = .sent fd message) (roll : Roll) :
    events.foldl Roll.note roll = roll := by
  induction events generalizing roll with
  | nil => rfl
  | cons event events ih =>
      obtain ⟨fd, message, rfl⟩ := hsent event List.mem_cons_self
      exact ih (fun event hmem => hsent event (List.mem_cons_of_mem _ hmem)) roll

section

variable (md5 : Bytes → Bytes) {past : List ServerEvent}

/-- **A first message** gives the interactor its user, or nothing. -/
theorem Enrolled.authenticate (h : server.Enrolled size roll)
    (hget : server.interactors[fd]? = some interactor) (huser : interactor.user = none)
    {message : Message} (hlength : message.encode.length ≤ size)
    (horderly : (server.authenticate md5 fd interactor message).state.Orderly) :
    (server.authenticate md5 fd interactor message).state.Enrolled size
      ((server.authenticate md5 fd interactor message).events.foldl Roll.note roll) := by
  cases message with
  | authenticationRequest request =>
      cases hanswer : server.authenticationManager.authenticate md5 request with
      | error e =>
          rw [authenticate_error md5 hanswer]
          exact h
      | ok answer =>
          -- Nothing but the user of the interactor changes.
          have hset : ∀ user : Option Bytes, (user.getD []).length ≤ size →
              (server.withInteractor fd { interactor with user }).Orderly →
                (server.withInteractor fd { interactor with user }).Enrolled size
                  { roll with users := Function.update roll.users fd user } := by
            intro user hshort horderly
            refine h.withInteractor horderly hget rfl ?_ ⟨hshort, (h.texts fd interactor hget).2⟩
            rw [huser]
            intro hsome
            cases hsome
          cases answer with
          | some user =>
              have hshort := AuthenticationManager.length_user_of_authenticate hanswer
              simp only [Message.encode, Message.encodeBody, FrameStream.encodeString,
                List.length_cons, List.length_append, length_networkLongToBuf] at hlength
              rw [authenticate_some md5 hanswer] at horderly ⊢
              refine (hset (some user) ?_ (horderly.congr ?_ ?_)).congr ?_ ?_
              · show user.length ≤ size
                omega
              · simp
              · simp
              · simp
              · simp
          | none =>
              have hsame : Function.update roll.users fd none = roll.users := by
                rw [Function.update_eq_self_iff, ← h.users fd interactor hget, huser]
              rw [authenticate_none md5 hanswer] at horderly ⊢
              have hnone := hset none (Nat.zero_le _) (horderly.congr (by simp) (by simp))
              rw [hsame] at hnone
              exact hnone.congr (by simp) (by simp)
  | _ =>
      rw [authenticate_other md5 (by simp)]
      exact h.congr (by simp) (by simp)

/-- **A message** is processed, and the roll stays right. -/
theorem keeps_enrolled_processMessage (hget : server.interactors[fd]? = some interactor)
    (message : Message) :
    (server.processMessage md5 fd interactor message).Keeps record (EnrolledIf size) server := by
  intro past h hlawful
  rw [foldl_record] at hlawful ⊢
  have henrolled := h hlawful.of_append
  have horderly := henrolled.orderly.processMessage md5 hget message
  cases huser : interactor.user with
  | some user =>
      have hsome : interactor.user.isSome := by simp [huser]
      rw [processMessage_of_user md5 hsome, Outcome.andThen_of_ok rfl] at hlawful horderly ⊢
      simp only [Outcome.emit_state, Outcome.emit_events, List.cons_append, List.nil_append]
        at hlawful horderly ⊢
      have hlength : message.encode.length ≤ size := hlawful.last
      rw [rollOf_append, List.foldl_cons, List.foldl_cons, foldl_note_sent sent_of_onHub]
      rw [← List.singleton_append (x := ServerEvent.processed fd message), ← List.append_assoc]
        at hlawful
      have hpermits := hlawful.last
      rw [rollOf_append] at hpermits
      exact henrolled.onMessage hget hsome hlength hpermits horderly
  | none =>
      rw [processMessage_of_none md5 huser, Outcome.andThen_of_ok rfl] at hlawful horderly ⊢
      simp only [Outcome.emit_state, Outcome.emit_events, List.cons_append, List.nil_append]
        at hlawful horderly ⊢
      rw [rollOf_append, List.foldl_cons]
      exact henrolled.authenticate md5 hget huser hlawful.last horderly

omit md5 in
theorem keeps_enrolled_onClose (hsize : size + size + 2 ^ 12 < 2 ^ 31) (server : ServerState ρ) (fd : Fd) :
    (server.onClose fd).Keeps record (EnrolledIf size) server := by
  intro past h hlawful
  rw [foldl_record] at hlawful ⊢
  have henrolled := h hlawful.of_append
  cases hget : server.interactors[fd]? with
  | none =>
      unfold ServerState.onClose
      rw [hget]
      simpa using henrolled
  | some interactor =>
      obtain ⟨hclosed, sent, hevents, hsent⟩ := henrolled.onClose hsize hget
      have hroll : sent.foldl Roll.note (rollOf past) = rollOf past := by
        rcases hsent with rfl | rfl
        · rfl
        · exact foldl_note_sent sent_of_onHub _
      rw [hevents, rollOf_append, List.foldl_append, hroll]
      exact hclosed

omit md5 in
theorem keeps_enrolled_onOpen {client : Client}
    (hnew : server.interactors[client.fd]? = none ∧ server.NewAddress (.opened client))
    (htexts : client.host.length ≤ 2 ^ 10 ∧ client.id.length ≤ 2 ^ 10) :
    (server.onOpen client).Keeps record (EnrolledIf size) server := by
  intro past h hlawful
  rw [foldl_record] at hlawful ⊢
  rw [rollOf_append]
  exact (h hlawful.of_append).onOpen hnew htexts.1 htexts.2

/-! ### The steps of the loop -/

/-- A new interactor is made at a new address, and its texts are short. -/
def Admits (server : ServerState ρ) (step : LoopStep ρ) : Prop :=
  server.MakesNew step ∧ ∀ client ∈ server.accepts step,
    client.host.length ≤ 2 ^ 10 ∧ client.id.length ≤ 2 ^ 10

/-- **A step of the loop** keeps the roll right. -/
theorem keeps_enrolled_loopStep (hsize : size + size + 2 ^ 12 < 2 ^ 31) {step : LoopStep ρ}
    (hadmits : server.Admits step) :
    (server.loopStep md5 step).Keeps record (EnrolledIf size) server := by
  refine keeps_loopStep md5 (fun s handlers past h hlawful => ?_)
    (fun s fd interactor reader past hget h hlawful => ?_)
    (fun _ _ _ message hget => keeps_enrolled_processMessage md5 hget message)
    (fun configuration _ past h hlawful => ?_)
    (fun s fd => keeps_enrolled_onClose hsize s fd)
    fun client haccepts => keeps_enrolled_onOpen (hadmits.1 client haccepts) (hadmits.2 client haccepts)
  · exact (h hlawful).congr rfl rfl
  · exact (h hlawful).withReader hget reader
  · rw [foldl_record, onInterrupt_events, List.append_nil] at hlawful ⊢
    exact (h hlawful).onInterrupt configuration

theorem enrolled_loopSteps (hsize : size + size + 2 ^ 12 < 2 ^ 31) {steps : List (LoopStep ρ)}
    (h : EnrolledIf size server past) (hadmits : Outcome.Meets (loopStep md5) Admits steps server) :
    EnrolledIf size (Outcome.forEach (ServerState.loopStep md5) steps server).state
      (past ++ (Outcome.forEach (ServerState.loopStep md5) steps server).events) := by
  refine hadmits.history (fun step s past (h : EnrolledIf size s past) hadmits => ?_) h
  have hkept := keeps_enrolled_loopStep md5 hsize hadmits past h
  rwa [foldl_record] at hkept

end

end ServerState

end SquawkBus.Server
