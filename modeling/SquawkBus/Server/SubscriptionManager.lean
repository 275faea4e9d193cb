import SquawkBus.Server.Interface

/-!
# `SubscriptionManager`

Who subscribes to which topic, how often, and the reverse table from a subscriber to its topics.
The methods take a `NotificationManager` in order to tell listeners about a subscription that
begins or ends; here they return those calls of `notify` as a list of `Notice`s, in order, and
`NotificationManager.notify` says what each of them does.
-/

namespace SquawkBus.Server

open SquawkBus.Messages

/-! ## The table -/

structure SubscriptionManager where
  subscriptions : OrdMap Bytes (OrdMap Ptr Int)
  subscriberTopics : OrdMap Ptr (OrdSet Bytes)

namespace SubscriptionManager

/-- No subscription at all. -/
def empty : SubscriptionManager := ⟨∅, ∅⟩

/-! ### Subscribing -/

/-- The forward table after an add: here the inner map is updated in place. -/
def addForward (subscriptions : OrdMap Bytes (OrdMap Ptr Int)) (subscriber : Ptr)
    (topic : Bytes) : OrdMap Bytes (OrdMap Ptr Int) × List Notice :=
  match subscriptions[topic]? with
  | none =>
      -- New topic.
      (subscriptions.insert topic (Std.ExtTreeMap.insert ∅ subscriber 1),
        [⟨subscriber, topic, true⟩])
  | some subscribers =>
      match subscribers[subscriber]? with
      | none =>
          -- New subscriber for topic.
          (subscriptions.insert topic (subscribers.insert subscriber 1),
            [⟨subscriber, topic, true⟩])
      | some count =>
          (subscriptions.insert topic (subscribers.insert subscriber (int (count + 1))), [])

def addSubscription (sm : SubscriptionManager) (subscriber : Ptr) (topic : Bytes) :
    SubscriptionManager × List Notice :=
  let (subscriptions, notices) := addForward sm.subscriptions subscriber topic
  (⟨subscriptions, Index.add sm.subscriberTopics subscriber topic⟩, notices)

def removeSubscription (sm : SubscriptionManager) (subscriber : Ptr) (topic : Bytes) :
    SubscriptionManager × List Notice :=
  match sm.subscriptions[topic]? with
  | none => (sm, [])
  | some subscribers =>
      -- `auto subscribers = i_subscriptions->second` copies the inner map: what follows changes
      -- the copy, and only the erasure of the whole topic reaches `subscriptions_`.
      match subscribers[subscriber]? with
      | none => (sm, [])
      | some count =>
          if 0 < int (count - 1) then
            (sm, [])
          else if (subscribers.erase subscriber).isEmpty then
            (⟨sm.subscriptions.erase topic, Index.remove sm.subscriberTopics subscriber topic⟩,
              [⟨subscriber, topic, false⟩])
          else
            (⟨sm.subscriptions, Index.remove sm.subscriberTopics subscriber topic⟩, [])

/-! ### Leaving -/

/-- One round of the loop of `removeInteractor`: the subscriber leaves the topic, and a topic left
without subscribers is erased and reported. -/
def closeTopic (subscriber : Ptr) (acc : OrdMap Bytes (OrdMap Ptr Int) × List Notice)
    (topic : Bytes) : OrdMap Bytes (OrdMap Ptr Int) × List Notice :=
  match acc.1[topic]? with
  | none => acc
  | some subscribers =>
      if (subscribers.erase subscriber).isEmpty then
        (acc.1.erase topic, acc.2 ++ [⟨subscriber, topic, false⟩])
      else
        (acc.1.insert topic (subscribers.erase subscriber), acc.2)

def removeInteractor (sm : SubscriptionManager) (subscriber : Ptr) :
    SubscriptionManager × List Notice :=
  match sm.subscriberTopics[subscriber]? with
  | none => (sm, [])
  | some topics =>
      let (subscriptions, notices) :=
        topics.toList.foldl (closeTopic subscriber) (sm.subscriptions, [])
      (⟨subscriptions, sm.subscriberTopics.erase subscriber⟩, notices)

def onSubscription (sm : SubscriptionManager) (subscriber : Ptr) (request : SubscriptionRequest) :
    SubscriptionManager × List Notice :=
  if request.isAdd then sm.addSubscription subscriber request.topic
  else sm.removeSubscription subscriber request.topic

def onInteractorClosed (sm : SubscriptionManager) (subscriber : Ptr) :
    SubscriptionManager × List Notice :=
  sm.removeInteractor subscriber

/-! ### Queries -/

/-- The subscribers of a topic. -/
def findSubscribers (sm : SubscriptionManager) (topic : Bytes) : OrdSet Ptr :=
  match sm.subscriptions[topic]? with
  | none => ∅
  | some subscribers => subscribers.keys.foldl (fun found s => found.insert s) ∅

/-- The topics a regular expression matches, each with its subscribers. -/
def findMatchingSubscriptions (sm : SubscriptionManager) (isMatch : Bytes → Bool) :
    List (Bytes × List Ptr) :=
  (sm.subscriptions.toList.filter fun entry => isMatch entry.1).map
    fun entry => (entry.1, entry.2.keys)

/-! ## What each operation does to the tables -/

theorem mem_findSubscribers {sm : SubscriptionManager} {topic : Bytes} {s : Ptr} :
    s ∈ sm.findSubscribers topic ↔ (Table.cell sm.subscriptions topic s).isSome := by
  unfold findSubscribers
  cases h : sm.subscriptions[topic]? with
  | none => simp [Table.cell_of_no_row h]
  | some subscribers =>
      rw [Table.cell_of_row h, OrdSet.mem_foldl_insert]
      simp

theorem cell_of_mem_findMatchingSubscriptions {sm : SubscriptionManager} {isMatch : Bytes → Bool}
    {topic : Bytes} {subscribers : List Ptr} {s : Ptr}
    (h : (topic, subscribers) ∈ sm.findMatchingSubscriptions isMatch) (hs : s ∈ subscribers) :
    (Table.cell sm.subscriptions topic s).isSome := by
  obtain ⟨⟨topic', row⟩, hentry, heq⟩ := List.mem_map.mp h
  obtain ⟨rfl, rfl⟩ := Prod.mk.inj heq
  have hrow := Std.ExtTreeMap.mem_toList_iff_getElem?_eq_some.mp (List.mem_filter.mp hentry).1
  rw [Table.cell_of_row hrow, ← Std.ExtTreeMap.mem_iff_isSome_getElem?]
  exact Std.ExtTreeMap.mem_keys.mp hs

theorem cell_addSubscription (sm : SubscriptionManager) (s s' : Ptr) (t t' : Bytes) :
    Table.cell (sm.addSubscription s t).1.subscriptions t' s' =
      if t = t' ∧ s = s' then
        some (match Table.cell sm.subscriptions t s with | none => 1 | some c => int (c + 1))
      else Table.cell sm.subscriptions t' s' := by
  unfold addSubscription addForward
  cases hrow : sm.subscriptions[t]? with
  | none =>
      simp only [Table.cell_insert, Table.cell_of_no_row hrow, OrdMap.get_insert]
      by_cases ht : t = t'
      · subst ht
        by_cases hs : s = s' <;> simp [hs, Table.cell_of_no_row hrow]
      · simp [ht]
  | some subscribers =>
      rw [Table.cell_of_row hrow]
      cases hc : subscribers[s]? <;>
        simp only [hc, Table.cell_insert, OrdMap.get_insert] <;>
        by_cases ht : t = t'
      all_goals
        first
        | simp [ht]; done
        | subst ht; by_cases hs : s = s' <;> simp [hs, Table.cell_of_row hrow]

@[simp] theorem subscriberTopics_addSubscription (sm : SubscriptionManager) (s : Ptr)
    (t : Bytes) :
    (sm.addSubscription s t).1.subscriberTopics = Index.add sm.subscriberTopics s t := rfl

/-- Everything a remove can do: nothing for a subscriber that is not there; nothing for one whose
stored count stays positive; the topic erased for the last count of the only subscriber; and for
the last count with other subscribers left, only the reverse entry erased. -/
theorem removeSubscription_cases (sm : SubscriptionManager) (s : Ptr) (t : Bytes) :
    (Table.cell sm.subscriptions t s = none ∧ sm.removeSubscription s t = (sm, [])) ∨
    (∃ c, Table.cell sm.subscriptions t s = some c ∧ 0 < int (c - 1) ∧
      sm.removeSubscription s t = (sm, [])) ∨
    (∃ c, Table.cell sm.subscriptions t s = some c ∧ ¬ 0 < int (c - 1) ∧
      (∀ s', s ≠ s' → Table.cell sm.subscriptions t s' = none) ∧
      sm.removeSubscription s t =
        (⟨sm.subscriptions.erase t, Index.remove sm.subscriberTopics s t⟩, [⟨s, t, false⟩])) ∨
    (∃ c, Table.cell sm.subscriptions t s = some c ∧ ¬ 0 < int (c - 1) ∧
      (∃ s', s ≠ s' ∧ (Table.cell sm.subscriptions t s').isSome) ∧
      sm.removeSubscription s t =
        (⟨sm.subscriptions, Index.remove sm.subscriberTopics s t⟩, [])) := by
  have hrelease : sm.removeSubscription s t =
      Table.release sm.subscriptions t s (fun c => 0 < int (c - 1)) (sm, [])
        (⟨sm.subscriptions.erase t, Index.remove sm.subscriberTopics s t⟩, [⟨s, t, false⟩])
        (⟨sm.subscriptions, Index.remove sm.subscriberTopics s t⟩, []) := by
    unfold removeSubscription Table.release
    cases sm.subscriptions[t]? with
    | none => rfl
    | some row =>
        simp only
        cases row[s]? <;> rfl
  rw [hrelease]
  exact Table.release_cases _ _ _ _ _ _ _

theorem removeSubscription_of_none {sm : SubscriptionManager} {s : Ptr} {t : Bytes}
    (h : Table.cell sm.subscriptions t s = none) : sm.removeSubscription s t = (sm, []) := by
  rcases removeSubscription_cases sm s t with ⟨-, hrem⟩ | ⟨c, hc, -⟩ | ⟨c, hc, -⟩ | ⟨c, hc, -⟩
  · exact hrem
  all_goals rw [h] at hc; cases hc

theorem removeSubscription_of_last {sm : SubscriptionManager} {s : Ptr} {t : Bytes}
    (hone : Table.cell sm.subscriptions t s = some 1)
    (honly : ∀ s', s ≠ s' → Table.cell sm.subscriptions t s' = none) :
    sm.removeSubscription s t =
      (⟨sm.subscriptions.erase t, Index.remove sm.subscriberTopics s t⟩, [⟨s, t, false⟩]) := by
  rcases removeSubscription_cases sm s t with ⟨hnone, -⟩ | ⟨c, hc, hpos, -⟩ |
    ⟨c, -, -, -, hrem⟩ | ⟨c, -, -, ⟨s', hs, hsome⟩, -⟩
  · rw [hone] at hnone
    cases hnone
  · rw [hone] at hc
    cases hc
    exact absurd hpos (by decide)
  · exact hrem
  · rw [honly s' hs] at hsome
    cases hsome

theorem closeTopic_fst (s : Ptr) (acc : OrdMap Bytes (OrdMap Ptr Int) × List Notice)
    (t : Bytes) : (closeTopic s acc t).1 = Table.dropCell s acc.1 t := by
  unfold closeTopic Table.dropCell
  cases acc.1[t]? with
  | none => rfl
  | some subscribers => simp only []; split <;> rfl

theorem foldl_closeTopic_fst (s : Ptr) (ts : List Bytes)
    (acc : OrdMap Bytes (OrdMap Ptr Int) × List Notice) :
    (ts.foldl (closeTopic s) acc).1 = ts.foldl (Table.dropCell s) acc.1 := by
  induction ts generalizing acc with
  | nil => rfl
  | cons t ts ih => rw [List.foldl_cons, List.foldl_cons, ih, closeTopic_fst]

/-- A disconnect clears the subscriber's cells in exactly the topics the reverse table lists, and
its entry there. -/
theorem closed_removeInteractor (sm : SubscriptionManager) (s : Ptr) :
    Table.Closed sm.subscriptions (sm.removeInteractor s).1.subscriptions sm.subscriberTopics
      (sm.removeInteractor s).1.subscriberTopics s := by
  unfold removeInteractor
  cases h : sm.subscriberTopics[s]? with
  | none => exact Table.closed_of_no_entry h
  | some topics =>
      simp only [foldl_closeTopic_fst]
      exact Table.closed_of_entry h

/-- Every notice of a request is about the client that made it and the topic it asks for. -/
theorem of_mem_onSubscription {sm : SubscriptionManager} {s : Ptr}
    {request : SubscriptionRequest} {notice : Notice}
    (h : notice ∈ (sm.onSubscription s request).2) :
    notice.subscriber = s ∧ notice.topic = request.topic := by
  unfold onSubscription at h
  split at h
  · have hadd : notice ∈ (addForward sm.subscriptions s request.topic).2 := h
    unfold addForward at hadd
    split at hadd
    · rw [List.mem_singleton.mp hadd]
      exact ⟨rfl, rfl⟩
    · split at hadd
      · rw [List.mem_singleton.mp hadd]
        exact ⟨rfl, rfl⟩
      · cases hadd
  · rcases removeSubscription_cases sm s request.topic with ⟨-, hrem⟩ | ⟨c, -, -, hrem⟩ |
      ⟨c, -, -, -, hrem⟩ | ⟨c, -, -, -, hrem⟩ <;> rw [hrem] at h
    · cases h
    · cases h
    · rw [List.mem_singleton.mp h]
      exact ⟨rfl, rfl⟩
    · cases h

theorem of_mem_foldl_closeTopic {s : Ptr} {ts : List Bytes}
    {acc : OrdMap Bytes (OrdMap Ptr Int) × List Notice} {notice : Notice}
    (h : notice ∈ (ts.foldl (closeTopic s) acc).2) :
    notice ∈ acc.2 ∨ (notice.subscriber = s ∧ notice.topic ∈ ts) := by
  induction ts generalizing acc with
  | nil => exact .inl h
  | cons t ts ih =>
      rcases ih h with hround | ⟨hs, ht⟩
      · unfold closeTopic at hround
        split at hround
        · exact .inl hround
        · split at hround
          · rcases List.mem_append.mp hround with hacc | hnew
            · exact .inl hacc
            · rw [List.mem_singleton.mp hnew]
              exact .inr ⟨rfl, by simp⟩
          · exact .inl hround
      · exact .inr ⟨hs, List.mem_cons_of_mem t ht⟩

/-- Every notice of a disconnect is about the client and one of its topics. -/
theorem of_mem_removeInteractor {sm : SubscriptionManager} {s : Ptr} {notice : Notice}
    (h : notice ∈ (sm.removeInteractor s).2) :
    notice.subscriber = s ∧ Index.Has sm.subscriberTopics s notice.topic := by
  unfold removeInteractor at h
  split at h
  · cases h
  · next topics htopics =>
    rcases of_mem_foldl_closeTopic h with hnil | ⟨hs, ht⟩
    · cases hnil
    · exact ⟨hs, (Index.has_of_entry htopics).mpr (Std.ExtTreeSet.mem_toList.mp ht)⟩

end SubscriptionManager

end SquawkBus.Server
