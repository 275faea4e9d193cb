import SquawkBus.Server.Hub
import SquawkBus.Library.Run

/-!
# Which publishers are heard

Data is forwarded in the name of its publisher, and once more, empty, when the last publisher of a
topic disconnects. The tests in the publisher manager let a publisher without entitlements pass
when it sends no packets, and a multicast registers its publisher before any test is made; apart
from these two ways in, everything that is forwarded in somebody's name goes back to a publish by
that connection for which it was entitled.
-/

namespace SquawkBus.Server

open SquawkBus.Messages

/-! ## The statement -/

variable {ρ : Type} [RegexEngine ρ]

/-- The call forwards data on the topic in the name of the user. -/
def Call.Forwards (user topic : Bytes) : Call → Prop
  | .send _ (.forwardedMulticastData data) => data.user = user ∧ data.topic = topic
  | .send _ (.forwardedUnicastData data) => data.user = user ∧ data.topic = topic
  | _ => False

/-- The step is a publish by the interactor on the topic. -/
def HubStep.Publishes (i : Ptr) (topic : Bytes) : HubStep ρ → Prop
  | .message j (.multicastData request) => j = i ∧ request.topic = topic
  | .message j (.unicastData request) => j = i ∧ request.topic = topic
  | _ => False

namespace Hub

/-- Under the authorizations in force the interactor's user may publish on the topic. -/
def Entitled (identify : Ptr → Identity) (hub : Hub ρ) (i : Ptr) (topic : Bytes) : Prop :=
  hub.publisherManager.authorizationManager.inForce (identify i).user topic Role.publisher ≠ ∅

/-- Somewhere in the run the interactor has published on the topic, entitled to it at that time. -/
def PublishedEntitled (identify : Ptr → Identity) (hub : Hub ρ) (steps : List (HubStep ρ))
    (i : Ptr) (topic : Bytes) : Prop :=
  ∃ pre s, pre ++ [s] <+: steps ∧ s.Publishes i topic ∧
    (hub.after identify pre).Entitled identify i topic

/-- The two ways for a publisher without entitlements are excluded: a multicast, unless it is
without effect because the publisher is registered and its packets will be filtered out; and a
unicast without packets to a client that is there. -/
def OnlyEntitled (identify : Ptr → Identity) (hub : Hub ρ) : HubStep ρ → Prop
  | .message i (.multicastData request) => hub.Entitled identify i request.topic ∨
      (request.dataPackets ≠ [] ∧
        Index.Has hub.publisherManager.topicPublishers request.topic i)
  | .message i (.unicastData request) => request.clientId ∈ hub.interactors →
      request.dataPackets = [] → hub.Entitled identify i request.topic
  | _ => True

variable {identify : Ptr → Identity} {hub : Hub ρ} {user topic : Bytes} {c : Call}

theorem PublishedEntitled.mono {steps steps' : List (HubStep ρ)} {i : Ptr}
    (h : PublishedEntitled identify hub steps i topic) (hle : steps <+: steps') :
    PublishedEntitled identify hub steps' i topic := by
  obtain ⟨pre, s, hpre, hs⟩ := h
  exact ⟨pre, s, hpre.trans hle, hs⟩

/-! ## What a step forwards -/

/-- **Who speaks in a step.** Data is forwarded in the name of the publisher the step is about,
which is entitled or sends no packets, or in the name of the last publisher of a topic, as it
disconnects. -/
theorem forwards_of_step {s : HubStep ρ} (h : c ∈ (hub.step identify s).events)
    (hc : c.Forwards user topic) :
    (∃ i request, s = .message i (.multicastData request) ∧ (identify i).user = user ∧
      request.topic = topic ∧ (¬ hub.Entitled identify i topic → request.dataPackets = [])) ∨
    (∃ i request, s = .message i (.unicastData request) ∧ (identify i).user = user ∧
      request.topic = topic ∧ request.clientId ∈ hub.interactors ∧
      (¬ hub.Entitled identify i topic → request.dataPackets = [])) ∨
    ∃ i, s = .disconnected i ∧ (identify i).user = user ∧
      topic ∈ hub.publisherManager.staleTopics i := by
  obtain ⟨receiver, m, rfl⟩ : ∃ receiver m, c = .send receiver m := by
    cases c with
    | send receiver m => exact ⟨receiver, m, rfl⟩
    | _ => cases hc
  cases (step_calls h).2 receiver m rfl with
  | subscription | closed | listen => cases hc
  | multicast publisher request _ packets hpackets hnone =>
      obtain ⟨huser, rfl⟩ := hc
      exact .inl ⟨publisher, request, rfl, huser, rfl, fun hnot => hnone (not_not.mp hnot)⟩
  | unicast publisher request _ hreceiver packets hpackets hnone =>
      obtain ⟨huser, rfl⟩ := hc
      exact .inr (.inl ⟨publisher, request, rfl, huser, rfl,
        OrdMap.mem_iff_get.mpr ⟨receiver, hreceiver⟩, fun hnot => hnone (not_not.mp hnot)⟩)
  | gone publisher topic' _ hstale =>
      obtain ⟨huser, rfl⟩ := hc
      exact .inr (.inr ⟨publisher, rfl, huser, hstale⟩)

/-! ## Who is registered as a publisher -/

/-- Everybody registered as a publisher has been entitled when publishing, and no topic is left
without publishers. -/
structure Vouched (identify : Ptr → Identity) (hub : Hub ρ) (steps : List (HubStep ρ)) : Prop where
  publishers : ∀ t i, Index.Has (hub.after identify steps).publisherManager.topicPublishers t i →
    PublishedEntitled identify hub steps i t
  noEmptyEntry : Index.NoEmptyEntry (hub.after identify steps).publisherManager.topicPublishers

theorem Vouched.of_stale {steps : List (HubStep ρ)} (h : Vouched identify hub steps) {i : Ptr}
    (hstale : topic ∈ (hub.after identify steps).publisherManager.staleTopics i) :
    PublishedEntitled identify hub steps i topic := by
  obtain ⟨publishers, hrow, honly⟩ := PublisherManager.mem_staleTopics.mp hstale
  obtain ⟨p, hp⟩ := h.noEmptyEntry topic publishers hrow
  exact h.publishers topic i ⟨publishers, hrow, honly p hp ▸ hp⟩

/-- A step that only changes what is cached keeps everybody vouched for. -/
theorem Vouched.of_tables {pre : List (HubStep ρ)} (h : Vouched identify hub pre) {s : HubStep ρ}
    (heq : (hub.after identify (pre ++ [s])).publisherManager.topicPublishers =
      (hub.after identify pre).publisherManager.topicPublishers) :
    Vouched identify hub (pre ++ [s]) where
  publishers t i hhas := by
    rw [heq] at hhas
    exact (h.publishers t i hhas).mono (List.prefix_append pre [s])
  noEmptyEntry := by rw [heq]; exact h.noEmptyEntry

/-- A step that registers its publisher needs that one to be vouched for. -/
theorem Vouched.published {pre : List (HubStep ρ)} (h : Vouched identify hub pre) {s : HubStep ρ}
    {i : Ptr} (hpub : PublisherManager.Published (hub.after identify pre).publisherManager
      (hub.after identify (pre ++ [s])).publisherManager i topic)
    (hi : PublishedEntitled identify hub (pre ++ [s]) i topic) :
    Vouched identify hub (pre ++ [s]) where
  publishers t j hhas := by
    rcases (hpub.topicPublishers t j).mp hhas with ⟨rfl, rfl⟩ | hhas
    · exact hi
    · exact (h.publishers t j hhas).mono (List.prefix_append pre [s])
  noEmptyEntry := hpub.noEmptyEntry h.noEmptyEntry

theorem Vouched.step {pre : List (HubStep ρ)} (h : Vouched identify hub pre) {s : HubStep ρ}
    (hok : (hub.after identify pre).OnlyEntitled identify s) :
    Vouched identify hub (pre ++ [s]) := by
  have hafter : hub.after identify (pre ++ [s]) = ((hub.after identify pre).step identify s).state :=
    after_append identify hub pre [s]
  cases s with
  | message i m =>
      cases m with
      | unicastData r =>
          rcases PublisherManager.onSendUnicast_cases identify
            (hub.after identify pre).publisherManager i r (hub.after identify pre).interactors with
            hnop | ⟨receiver, -, hsame, -⟩ | ⟨receiver, packets, hreceiver, hnone, -, hsame, -⟩
          · refine h.of_tables ?_
            rw [hafter]
            exact congrArg (fun o => o.1.topicPublishers) hnop
          · refine h.of_tables ?_
            rw [hafter]
            exact hsame.topicPublishers
          · have hpub := (PublisherManager.published_addPublisher _ i r.topic).sameBut hsame
            refine h.published (by rw [hafter]; exact hpub)
              ⟨pre, _, List.prefix_refl _, ⟨rfl, rfl⟩, fun hempty => ?_⟩
            -- Without packets the step's condition says so, with packets the test does.
            exact hok (OrdMap.mem_iff_get.mpr ⟨receiver, hreceiver⟩) (hnone hempty) hempty
      | multicastData r =>
          have hpub := (PublisherManager.onSendMulticast_spec identify
            (hub.after identify pre).publisherManager i r
            (hub.after identify pre).subscriptionManager).1
          have hvouched : PublishedEntitled identify hub (pre ++ [.message i (.multicastData r)]) i
              r.topic := by
            rcases hok with hentitled | ⟨-, hhas⟩
            · exact ⟨pre, _, List.prefix_refl _, ⟨rfl, rfl⟩, hentitled⟩
            · exact (h.publishers r.topic i hhas).mono (List.prefix_append pre _)
          exact h.published (by rw [hafter]; exact hpub) hvouched
      | _ => exact h.of_tables (by rw [hafter]; rfl)
  | connected _ => exact h.of_tables (by rw [hafter]; rfl)
  | disconnected i =>
      rcases PublisherManager.onInteractorClosed_cases identify
        (hub.after identify pre).publisherManager i
        ((hub.after identify pre).subscriptionManager.onInteractorClosed i).1 with
        ⟨-, hnop⟩ | ⟨-, -, htopics, hnoEmpty, -⟩
      · refine h.of_tables ?_
        rw [hafter]
        exact congrArg (fun o => o.1.topicPublishers) hnop
      · refine ⟨fun t j hhas => ?_, by rw [hafter]; exact hnoEmpty⟩
        rw [hafter] at hhas
        exact (h.publishers t j ((htopics t j).mp hhas).2).mono (List.prefix_append pre _)
  | reload file =>
      refine h.of_tables ?_
      rw [hafter]
      show ((hub.after identify pre).reload file).state.publisherManager.topicPublishers = _
      unfold reload
      split
      · next pm hreload =>
        obtain ⟨am, -, rfl⟩ := PublisherManager.reloadAuthorizations_ok hreload
        rfl
      · rfl

theorem vouched_of_onlyEntitled {am : AuthorizationManager ρ} {steps : List (HubStep ρ)}
    (h : Run.Meets (fun hub s => (hub.step identify s).state) (OnlyEntitled identify) (new am)
      steps) : ∀ pre, pre <+: steps → Vouched identify (new am) pre := by
  refine Run.prefix_induction steps ?_ ?_
  · exact ⟨fun t i hhas => absurd hhas (Index.not_has_empty t i), Index.noEmptyEntry_empty⟩
  · intro pre s hpre ih
    exact ih.step (h pre s hpre)

/-! ## Runs -/

/-- **Only authorized publishers are heard**, if only these multicast and send empty unicasts: what
is forwarded in the name of a user goes back to a connection of that user, which publishes in this
very step and is entitled to, or which disconnects and has published on the topic when it was
entitled to. -/
theorem heard_only_if_entitled (identify : Ptr → Identity) (am : AuthorizationManager ρ)
    (steps : List (HubStep ρ))
    (honly : Run.Meets (fun hub s => (hub.step identify s).state) (OnlyEntitled identify) (new am)
      steps) :
    ∀ pre s, pre ++ [s] <+: steps → ∀ c ∈ (((new am).after identify pre).step identify s).events,
      ∀ user topic, c.Forwards user topic → ∃ i, (identify i).user = user ∧
        (s.Publishes i topic ∧ ((new am).after identify pre).Entitled identify i topic ∨
          s = .disconnected i ∧ PublishedEntitled identify (new am) pre i topic) := by
  intro pre s hpre c hc user topic hforwards
  have hok : ((new am).after identify pre).OnlyEntitled identify s := honly pre s hpre
  rcases forwards_of_step hc hforwards with ⟨i, r, rfl, huser, rfl, hempty⟩ |
    ⟨i, r, rfl, huser, rfl, hclient, hempty⟩ | ⟨i, rfl, huser, hstale⟩
  · refine ⟨i, huser, .inl ⟨⟨rfl, rfl⟩, ?_⟩⟩
    rcases hok with hentitled | ⟨hpackets, -⟩
    · exact hentitled
    · by_contra hnot
      exact hpackets (hempty hnot)
  · refine ⟨i, huser, .inl ⟨⟨rfl, rfl⟩, ?_⟩⟩
    by_contra hnot
    exact hnot (hok hclient (hempty hnot))
  · have hvouched := vouched_of_onlyEntitled honly pre ((List.prefix_append pre _).trans hpre)
    exact ⟨i, huser, .inr ⟨rfl, hvouched.of_stale hstale⟩⟩

instance decidableEntitled (identify : Ptr → Identity) (hub : Hub ρ) (i : Ptr) (topic : Bytes) :
    Decidable (hub.Entitled identify i topic) :=
  inferInstanceAs (Decidable (_ ≠ _))

instance decidableOnlyEntitled (identify : Ptr → Identity) (hub : Hub ρ) :
    (s : HubStep ρ) → Decidable (hub.OnlyEntitled identify s)
  | .message i (.multicastData request) =>
      inferInstanceAs (Decidable (hub.Entitled identify i request.topic ∨ request.dataPackets ≠ [] ∧
        Index.Has hub.publisherManager.topicPublishers request.topic i))
  | .message i (.unicastData request) =>
      inferInstanceAs (Decidable (request.clientId ∈ hub.interactors → request.dataPackets = [] →
        hub.Entitled identify i request.topic))
  | .message _ (.subscriptionRequest _) | .message _ (.notificationRequest _)
  | .message _ (.authenticationRequest _) | .message _ (.authenticationResponse _)
  | .message _ (.forwardedSubscriptionRequest _) | .message _ (.forwardedMulticastData _)
  | .message _ (.forwardedUnicastData _) | .connected _ | .disconnected _ | .reload _ =>
      isTrue trivial

/-! ### Publishers without entitlements -/

/-- User `1` may publish on `A`, everybody may subscribe, to the entitlement 0. -/
def publisherOne : List (AuthorizationSpec PlainRegex) :=
  [⟨[1], ascii "A", .literal [1], .literal (ascii "A"), {0}, Role.publisher, by decide, by decide⟩,
    ⟨ascii ".*", ascii ".*", .anything, .anything, {0}, Role.subscriber, by decide, by decide⟩]

/-- An entitled publisher sends data, then nothing, and disconnects. -/
theorem heard_only_if_entitled_one :
    let steps : List (HubStep PlainRegex) :=
      [.reload fun _ => .ok [], .message 2 (.subscriptionRequest ⟨ascii "A", true⟩),
        .message 1 (.multicastData ⟨ascii "A", [⟨0, ascii "json", [7]⟩]⟩),
        .message 1 (.multicastData ⟨ascii "A", []⟩), .disconnected 1]
    ∀ pre s, pre ++ [s] <+: steps →
      ∀ c ∈ (((new (.new none publisherOne)).after numbered pre).step numbered s).events,
      ∀ user topic, c.Forwards user topic → ∃ i, (numbered i).user = user ∧
        (s.Publishes i topic ∧
          ((new (.new none publisherOne)).after numbered pre).Entitled numbered i topic ∨
        s = .disconnected i ∧
          PublishedEntitled numbered (new (.new none publisherOne)) pre i topic) :=
  heard_only_if_entitled numbered (.new none publisherOne) _ (by decide)

/-- User `3` may not publish on `A`. Its multicast without packets is forwarded; and after a
multicast with packets, which nobody gets, its disconnect is announced. -/
theorem unentitled_publisher_heard :
    let hub : Hub PlainRegex := (new (.new none publisherOne)).after numbered
      [.reload fun _ => .ok [], .message 2 (.subscriptionRequest ⟨ascii "A", true⟩)]
    ¬ hub.Entitled numbered 3 (ascii "A") ∧
    Call.send 2 (.forwardedMulticastData ⟨[3], ascii "host", ascii "A", []⟩) ∈
      (hub.step numbered (.message 3 (.multicastData ⟨ascii "A", []⟩))).events ∧
    Call.send 2 (.forwardedMulticastData ⟨[3], ascii "host", ascii "A", []⟩) ∈
      ((hub.after numbered
          [.message 3 (.multicastData ⟨ascii "A", [⟨0, ascii "json", [7]⟩]⟩)]).step numbered
        (.disconnected 3)).events := by
  decide

end Hub

end SquawkBus.Server
