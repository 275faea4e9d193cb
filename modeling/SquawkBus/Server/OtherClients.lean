import SquawkBus.Server.Departure

/-!
# What a client cannot touch

A step about one client leaves the entries of every other client as they are, in all the tables of
the three managers, and in any state of the hub. Whole rows are erased only where a row is seen to
hold nobody else, and the copies that some operations work on lose the client's own updates, not
those of others. The regular expression of a pattern goes with its row, so it stays as long as
somebody else is listed there.
-/

namespace SquawkBus.Server

open SquawkBus.Messages

variable {ρ : Type}

/-! ## Subscriptions -/

namespace SubscriptionManager

/-- The entries of `i` are the same in `sm'` as in `sm`. -/
def SameFor (sm sm' : SubscriptionManager) (i : Ptr) : Prop :=
  Table.SameFor sm.subscriptions sm'.subscriptions sm.subscriberTopics sm'.subscriberTopics i

variable {i j : Ptr}

theorem sameFor_add (sm : SubscriptionManager) (hj : j ≠ i) (topic : Bytes) :
    SameFor sm (sm.addSubscription j topic).1 i where
  cells t := by rw [cell_addSubscription, if_neg fun heq => hj heq.2]
  entry := Index.get_add_of_ne hj sm.subscriberTopics topic

theorem sameFor_remove (sm : SubscriptionManager) (hj : j ≠ i) (topic : Bytes) :
    SameFor sm (sm.removeSubscription j topic).1 i := by
  have hsame : SameFor sm sm i := .refl _ _ i
  rcases removeSubscription_cases sm j topic with ⟨-, hrem⟩ | ⟨c, -, -, hrem⟩ |
    ⟨c, -, -, honly, hrem⟩ | ⟨c, -, -, -, hrem⟩ <;> rw [hrem]
  · exact hsame
  · exact hsame
  · exact (Table.sameFor_erase _ (honly i hj)).remove hj topic
  · exact Table.SameFor.remove hsame hj topic

theorem sameFor_onSubscription (sm : SubscriptionManager) (hj : j ≠ i)
    (request : SubscriptionRequest) : SameFor sm (sm.onSubscription j request).1 i := by
  unfold onSubscription
  split
  · exact sm.sameFor_add hj request.topic
  · exact sm.sameFor_remove hj request.topic

theorem sameFor_close (sm : SubscriptionManager) (hj : j ≠ i) :
    SameFor sm (sm.onInteractorClosed j).1 i :=
  (closed_removeInteractor sm j).sameFor hj

end SubscriptionManager

/-! ## Listeners -/

namespace NotificationManager

/-- The entries of `i` are the same in `nm'` as in `nm`, and so is the presence in the cache of the
patterns it is listed under. -/
structure SameFor (nm nm' : NotificationManager ρ) (i : Ptr) : Prop where
  tables : Table.SameFor nm.notifications nm'.notifications nm.listenerTopicPatterns
    nm'.listenerTopicPatterns i
  cached : ∀ p, (Table.cell nm'.notifications p i).isSome →
    (p ∈ nm'.regexCache ↔ p ∈ nm.regexCache)

variable {i j : Ptr}

theorem SameFor.refl (nm : NotificationManager ρ) (i : Ptr) : SameFor nm nm i :=
  ⟨.refl _ _ i, fun _ _ => Iff.rfl⟩

/-- A row made for another, where there was none, has no cell for `i`. -/
theorem sameFor_new_row (nm : NotificationManager ρ) (hj : j ≠ i) {p : Bytes}
    (hrow : nm.notifications[p]? = none) :
    Table.SameFor nm.notifications (nm.notifications.insert p (Std.ExtTreeMap.insert ∅ j 1))
      nm.listenerTopicPatterns nm.listenerTopicPatterns i where
  cells q := by
    rw [Table.cell_insert]
    split
    · next hp => simp [← hp, Table.cell_of_no_row hrow, hj]
    · rfl
  entry := rfl

theorem sameFor_add [RegexEngine ρ] (identify : Ptr → Identity) (nm : NotificationManager ρ)
    (hj : j ≠ i) (p : Bytes) (sm : SubscriptionManager) :
    SameFor nm (addListener identify nm j p sm).state i := by
  rcases addListener_cases identify nm j p sm with ⟨hrow, -, hadd⟩ |
    ⟨regex, hrow, -, -, hstate⟩ | ⟨-, -, hstate⟩
  · -- The row is left behind by a malformed pattern.
    rw [hadd]
    exact ⟨nm.sameFor_new_row hj hrow, fun _ _ => Iff.rfl⟩
  · rw [hstate]
    refine ⟨(nm.sameFor_new_row hj hrow).add hj p, fun q hcell => ?_⟩
    have hne : p ≠ q := by
      rintro rfl
      rw [(nm.sameFor_new_row hj hrow).cells, Table.cell_of_no_row hrow] at hcell
      cases hcell
    simp [Std.ExtTreeMap.mem_insertIfNew, hne]
  · rw [hstate]
    exact ⟨(Table.SameFor.refl _ _ i).add hj p, fun _ _ => Iff.rfl⟩

theorem sameFor_remove (nm : NotificationManager ρ) (hj : j ≠ i) (p : Bytes) :
    SameFor nm (nm.removeListener j p) i := by
  rcases removeListener_cases nm j p with ⟨-, hrem⟩ | ⟨c, -, -, hrem⟩ |
    ⟨c, -, -, honly, hrem⟩ | ⟨c, -, -, -, hrem⟩ <;> rw [hrem]
  · exact .refl nm i
  · exact .refl nm i
  · refine ⟨(Table.sameFor_erase _ (honly i hj)).remove hj p, fun q hcell => ?_⟩
    have hne : p ≠ q := by
      rintro rfl
      simp [Table.cell_erase] at hcell
    simp [hne]
  · exact ⟨(Table.SameFor.refl _ _ i).remove hj p, fun _ _ => Iff.rfl⟩

theorem sameFor_onListen [RegexEngine ρ] (identify : Ptr → Identity) (nm : NotificationManager ρ)
    (hj : j ≠ i) (request : NotificationRequest) (sm : SubscriptionManager) :
    SameFor nm (onListen identify nm j request sm).state i := by
  unfold onListen
  split
  · exact nm.sameFor_add identify hj request.topicPattern sm
  · exact nm.sameFor_remove hj request.topicPattern

/-- A pattern leaves the cache in a disconnect only when nobody else is listed under it. -/
theorem cached_iff_of_listed (hj : j ≠ i) (ps : List Bytes)
    (acc : OrdMap Bytes (OrdMap Ptr Int) × OrdMap Bytes ρ) {q : Bytes}
    (hcell : (Table.cell acc.1 q i).isSome) :
    q ∈ (ps.foldl (closePattern j) acc).2 ↔ q ∈ acc.2 := by
  induction ps generalizing acc with
  | nil => exact Iff.rfl
  | cons p ps ih =>
      have hround : Table.cell (closePattern j acc p).1 q i = Table.cell acc.1 q i := by
        have hfst := foldl_closePattern_fst j [p] acc
        simp only [List.foldl_cons, List.foldl_nil] at hfst
        rw [hfst, Table.cell_dropCell, if_neg fun heq => hj heq.2]
      rw [List.foldl_cons, ih (closePattern j acc p) (by rwa [hround])]
      unfold closePattern
      split
      · rfl
      · next listeners hrow =>
        split
        · next hempty =>
          have hne : p ≠ q := by
            rintro rfl
            rw [Table.cell_of_row hrow, OrdMap.isEmpty_erase_iff.mp hempty i hj] at hcell
            cases hcell
          simp [hne]
        · rfl

theorem sameFor_close (nm : NotificationManager ρ) (hj : j ≠ i) :
    SameFor nm (nm.onInteractorClosed j) i := by
  have htables := (closed_onInteractorClosed nm j).sameFor hj
  refine ⟨htables, fun q hcell => ?_⟩
  rw [htables.cells] at hcell
  unfold onInteractorClosed
  split
  · rfl
  · exact cached_iff_of_listed hj _ _ hcell

end NotificationManager

variable [RegexEngine ρ]

/-! ## Publishers -/

namespace PublisherManager

/-- The entries of `i` are the same in `pm'` as in `pm`. -/
structure SameFor (pm pm' : PublisherManager ρ) (i : Ptr) : Prop where
  topicPublishers : ∀ t, Index.Has pm'.topicPublishers t i ↔ Index.Has pm.topicPublishers t i
  publisherTopics : pm'.publisherTopics[i]? = pm.publisherTopics[i]?

variable {pm pm' : PublisherManager ρ} {i j : Ptr}

theorem SameBut.sameFor (h : SameBut pm pm') (i : Ptr) : SameFor pm pm' i where
  topicPublishers t := by rw [h.topicPublishers]
  publisherTopics := by rw [h.publisherTopics]

/-- Queries about a publisher that has been entered change nothing for others. -/
theorem SameFor.of_added (hj : j ≠ i) {topic : Bytes} (h : SameBut (pm.addPublisher j topic) pm') :
    SameFor pm pm' i where
  topicPublishers t := by
    rw [h.topicPublishers, addPublisher, Index.has_add]
    exact ⟨fun hhas => hhas.elim (fun heq => absurd heq.2 hj) id, .inr⟩
  publisherTopics := by
    rw [h.publisherTopics]
    exact Index.get_add_of_ne hj pm.publisherTopics topic

theorem sameFor_onSendUnicast (identify : Ptr → Identity) (pm : PublisherManager ρ) (hj : j ≠ i)
    (request : UnicastData) (interactors : OrdMap Bytes Ptr) :
    SameFor pm (onSendUnicast identify pm j request interactors).1 i := by
  rcases onSendUnicast_cases identify pm j request interactors with hnop |
    ⟨receiver, -, hsame, -⟩ | ⟨receiver, packets, -, -, -, hsame, -⟩
  · rw [hnop]
    exact (SameBut.refl pm).sameFor i
  · exact hsame.sameFor i
  · exact .of_added hj hsame

theorem sameFor_onSendMulticast (identify : Ptr → Identity) (pm : PublisherManager ρ) (hj : j ≠ i)
    (request : MulticastData) (sm : SubscriptionManager) :
    SameFor pm (onSendMulticast identify pm j request sm).1 i :=
  .of_added hj (sameBut_onSendMulticast identify pm j request sm)

theorem sameFor_close (identify : Ptr → Identity) (pm : PublisherManager ρ) (hj : j ≠ i)
    (sm : SubscriptionManager) : SameFor pm (onInteractorClosed identify pm j sm).1 i := by
  rcases onInteractorClosed_cases identify pm j sm with ⟨-, hnop⟩ |
    ⟨-, hpublishers, htopics, -, -⟩
  · rw [hnop]
    exact (SameBut.refl pm).sameFor i
  · refine ⟨fun t => (htopics t i).trans ⟨And.right, fun h => ⟨hj, h⟩⟩, ?_⟩
    rw [hpublishers, OrdMap.get_erase, if_neg hj]

end PublisherManager

/-! ## The hub -/

namespace Hub

/-- **The registrations of `i` are undisturbed**: each manager's entries of `i` are the same in
`hub'` as in `hub`. -/
structure SameFor (hub hub' : Hub ρ) (i : Ptr) : Prop where
  subscriptions : hub.subscriptionManager.SameFor hub'.subscriptionManager i
  listeners : hub.notificationManager.SameFor hub'.notificationManager i
  publishers : hub.publisherManager.SameFor hub'.publisherManager i

theorem SameFor.refl (hub : Hub ρ) (i : Ptr) : SameFor hub hub i :=
  ⟨.refl _ _ i, .refl _ i, (PublisherManager.SameBut.refl _).sameFor i⟩

/-- **Nobody disturbs another's registrations**, in any state and by any step: what is registered
for `i` changes in the steps of `i` only, whether or not the step throws. -/
theorem sameFor_step (identify : Ptr → Identity) (hub : Hub ρ) (s : HubStep ρ) {i : Ptr}
    (hs : s.interactor? ≠ some i) : SameFor hub (hub.step identify s).state i := by
  have hsame := SameFor.refl hub i
  cases s with
  | message j m =>
      have hj : j ≠ i := fun heq => hs (congrArg some heq)
      cases m with
      | subscriptionRequest request =>
          exact ⟨hub.subscriptionManager.sameFor_onSubscription hj request, hsame.listeners,
            hsame.publishers⟩
      | notificationRequest request =>
          exact ⟨hsame.subscriptions,
            hub.notificationManager.sameFor_onListen identify hj request _, hsame.publishers⟩
      | unicastData request =>
          exact ⟨hsame.subscriptions, hsame.listeners,
            hub.publisherManager.sameFor_onSendUnicast identify hj request hub.interactors⟩
      | multicastData request =>
          exact ⟨hsame.subscriptions, hsame.listeners,
            hub.publisherManager.sameFor_onSendMulticast identify hj request _⟩
      | _ => exact hsame
  | connected j => exact ⟨hsame.subscriptions, hsame.listeners, hsame.publishers⟩
  | disconnected j =>
      have hj : j ≠ i := fun heq => hs (congrArg some heq)
      exact ⟨hub.subscriptionManager.sameFor_close hj, hub.notificationManager.sameFor_close hj,
        hub.publisherManager.sameFor_close identify hj _⟩
  | reload file =>
      show SameFor hub (hub.reload file).state i
      unfold reload
      split
      · next pm hreload =>
        obtain ⟨am, -, rfl⟩ := PublisherManager.reloadAuthorizations_ok hreload
        exact ⟨hsame.subscriptions, hsame.listeners, ⟨fun _ => Iff.rfl, rfl⟩⟩
      · exact hsame

/-- Client 1 disconnects from a hub in which client 2 shares its topic and its pattern. -/
theorem sameFor_step_shared :
    let hub : Hub PlainRegex := (new (.new none [])).after numbered
      [.message 1 (.subscriptionRequest ⟨ascii "A", true⟩),
        .message 2 (.subscriptionRequest ⟨ascii "A", true⟩),
        .message 2 (.notificationRequest ⟨ascii ".*", true⟩),
        .message 1 (.notificationRequest ⟨ascii ".*", true⟩)]
    SameFor hub (hub.step numbered (.disconnected 1)).state 2 :=
  sameFor_step numbered _ (.disconnected 1) (by decide)

end Hub

end SquawkBus.Server
