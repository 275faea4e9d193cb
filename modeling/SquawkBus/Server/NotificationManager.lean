import SquawkBus.Server.SubscriptionManager

/-!
# `NotificationManager`

Who listens to the subscriptions on which topic patterns. Three tables: the listeners of each
pattern with their counts, the compiled regular expression of each pattern, and the reverse table
from a listener to its patterns.
-/

namespace SquawkBus.Server

open SquawkBus.Messages

/-! ## The tables -/

structure NotificationManager (ρ : Type) where
  notifications : OrdMap Bytes (OrdMap Ptr Int)
  regexCache : OrdMap Bytes ρ
  listenerTopicPatterns : OrdMap Ptr (OrdSet Bytes)

namespace NotificationManager

variable {ρ : Type}

/-- No listener at all. -/
def empty : NotificationManager ρ := ⟨∅, ∅, ∅⟩

/-! ### Listening -/

/-- The tail of `add_listener`: the reverse lookup, and the subscriptions there are already. -/
def registerListener [RegexEngine ρ] (identify : Ptr → Identity) (nm : NotificationManager ρ)
    (listener : Ptr) (topicPattern : Bytes) (sm : SubscriptionManager) :
    Outcome (NotificationManager ρ) Call Exn :=
  let nm := { nm with
    listenerTopicPatterns := Index.add nm.listenerTopicPatterns listener topicPattern }
  match nm.regexCache[topicPattern]? with
  | none => .done nm
  | some regex =>
      .emit nm <| (sm.findMatchingSubscriptions fun topic => RegexEngine.isMatch topic regex).flatMap
        fun (topic, subscribers) => subscribers.flatMap fun subscriber =>
          [.user subscriber, .host subscriber, .id subscriber,
            .send listener (.forwardedSubscriptionRequest ⟨(identify subscriber).user,
              (identify subscriber).host, (identify subscriber).id, topic, true⟩)]

def addListener [RegexEngine ρ] (identify : Ptr → Identity) (nm : NotificationManager ρ)
    (listener : Ptr) (topicPattern : Bytes) (sm : SubscriptionManager) :
    Outcome (NotificationManager ρ) Call Exn :=
  match nm.notifications[topicPattern]? with
  | none =>
      -- New topic pattern. The row is there before the regular expression is constructed, and
      -- stays when the construction throws.
      let nm := { nm with
        notifications := nm.notifications.insert topicPattern (Std.ExtTreeMap.insert ∅ listener 1) }
      match (RegexEngine.compile topicPattern : Option ρ) with
      | none => .fail nm .regexError
      | some regex =>
          registerListener identify
            { nm with regexCache := nm.regexCache.insertIfNew topicPattern regex }
            listener topicPattern sm
  | some _ =>
      -- `auto listeners = i_notifications->second` copies the inner map: the new listener, or the
      -- incremented count, goes into the copy and is lost.
      registerListener identify nm listener topicPattern sm

def removeListener (nm : NotificationManager ρ) (listener : Ptr) (topicPattern : Bytes) :
    NotificationManager ρ :=
  match nm.notifications[topicPattern]? with
  | none => nm
  | some listeners =>
      -- A copy again: only the erasure of the whole pattern reaches the tables.
      match listeners[listener]? with
      | none => nm
      | some count =>
          if 0 < int (count - 1) then nm
          else if (listeners.erase listener).isEmpty then
            { notifications := nm.notifications.erase topicPattern
              regexCache := nm.regexCache.erase topicPattern
              listenerTopicPatterns :=
                Index.remove nm.listenerTopicPatterns listener topicPattern }
          else
            { nm with
              listenerTopicPatterns :=
                Index.remove nm.listenerTopicPatterns listener topicPattern }

def onListen [RegexEngine ρ] (identify : Ptr → Identity) (nm : NotificationManager ρ)
    (listener : Ptr) (request : NotificationRequest) (sm : SubscriptionManager) :
    Outcome (NotificationManager ρ) Call Exn :=
  if request.isAdd then addListener identify nm listener request.topicPattern sm
  else .done (nm.removeListener listener request.topicPattern)

/-! ### Leaving -/

/-- One round of the loop of `on_interactor_closed`, on `notifications_` and `regex_cache_`. -/
def closePattern (listener : Ptr) (acc : OrdMap Bytes (OrdMap Ptr Int) × OrdMap Bytes ρ)
    (topicPattern : Bytes) : OrdMap Bytes (OrdMap Ptr Int) × OrdMap Bytes ρ :=
  match acc.1[topicPattern]? with
  | none => acc
  | some listeners =>
      if (listeners.erase listener).isEmpty then
        (acc.1.erase topicPattern, acc.2.erase topicPattern)
      else
        (acc.1.insert topicPattern (listeners.erase listener), acc.2)

def onInteractorClosed (nm : NotificationManager ρ) (listener : Ptr) : NotificationManager ρ :=
  match nm.listenerTopicPatterns[listener]? with
  | none => nm
  | some topicPatterns =>
      let (notifications, regexCache) :=
        topicPatterns.toList.foldl (closePattern listener) (nm.notifications, nm.regexCache)
      { notifications, regexCache,
        listenerTopicPatterns := nm.listenerTopicPatterns.erase listener }

/-! ### Notifying -/

/-- The listeners of the patterns that match a topic. -/
def findListeners [RegexEngine ρ] (nm : NotificationManager ρ) (topic : Bytes) : OrdSet Ptr :=
  nm.regexCache.toList.foldl (fun found (topicPattern, regex) =>
    if RegexEngine.isMatch topic regex then
      match nm.notifications[topicPattern]? with
      | none => found
      | some listeners => listeners.keys.foldl (fun found l => found.insert l) found
    else found) ∅

/-- The calls of `notify(subscriber, topic, is_add)`. -/
def notify [RegexEngine ρ] (identify : Ptr → Identity) (nm : NotificationManager ρ)
    (notice : Notice) : List Call :=
  let listeners := (nm.findListeners notice.topic).toList
  if listeners.isEmpty then []
  else
    let subscriber := notice.subscriber
    [.user subscriber, .host subscriber, .id subscriber] ++
      listeners.flatMap fun listener =>
        [.str subscriber, .str listener,
          .send listener (.forwardedSubscriptionRequest ⟨(identify subscriber).user,
            (identify subscriber).host, (identify subscriber).id, notice.topic, notice.isAdd⟩)]

/-! ## What each operation does to the tables -/

theorem mem_findListeners [RegexEngine ρ] {nm : NotificationManager ρ} {topic : Bytes} {l : Ptr} :
    l ∈ nm.findListeners topic ↔ ∃ p regex, nm.regexCache[p]? = some regex ∧
      RegexEngine.isMatch topic regex ∧ (Table.cell nm.notifications p l).isSome := by
  have hfold : ∀ (entries : List (Bytes × ρ)) (found : OrdSet Ptr),
      l ∈ entries.foldl (fun found (topicPattern, regex) =>
        if RegexEngine.isMatch topic regex then
          match nm.notifications[topicPattern]? with
          | none => found
          | some listeners => listeners.keys.foldl (fun found l => found.insert l) found
        else found) found ↔
      l ∈ found ∨ ∃ entry ∈ entries, RegexEngine.isMatch topic entry.2 ∧
        (Table.cell nm.notifications entry.1 l).isSome := by
    intro entries
    induction entries with
    | nil => simp
    | cons entry entries ih =>
        intro found
        rw [List.foldl_cons, ih, List.exists_mem_cons_iff]
        by_cases hmatch : RegexEngine.isMatch topic entry.2
        · cases hrow : nm.notifications[entry.1]? with
          | none => simp [hmatch, hrow, Table.cell_of_no_row hrow]
          | some listeners =>
              simp only [hmatch, hrow, if_true, OrdSet.mem_foldl_insert, Table.cell_of_row hrow,
                Std.ExtTreeMap.mem_keys, Std.ExtTreeMap.mem_iff_isSome_getElem?, true_and]
              tauto
        · simp [hmatch]
  rw [findListeners, hfold]
  simp only [Std.ExtTreeSet.not_mem_empty, false_or, Prod.exists,
    Std.ExtTreeMap.mem_toList_iff_getElem?_eq_some]

/-- Everything an add can do to the tables: on a new pattern that is malformed, leave the row and
throw; on a new pattern otherwise, enter it everywhere; on an existing pattern, enter it in the
reverse table only. -/
theorem addListener_cases [RegexEngine ρ] (identify : Ptr → Identity)
    (nm : NotificationManager ρ) (l : Ptr) (p : Bytes) (sm : SubscriptionManager) :
    (nm.notifications[p]? = none ∧ (RegexEngine.compile p : Option ρ) = none ∧
      addListener identify nm l p sm =
        .fail { nm with notifications := nm.notifications.insert p (Std.ExtTreeMap.insert ∅ l 1) }
          .regexError) ∨
    (∃ regex : ρ, nm.notifications[p]? = none ∧ RegexEngine.compile p = some regex ∧
      (addListener identify nm l p sm).fault = none ∧
      (addListener identify nm l p sm).state =
        { notifications := nm.notifications.insert p (Std.ExtTreeMap.insert ∅ l 1)
          regexCache := nm.regexCache.insertIfNew p regex
          listenerTopicPatterns := Index.add nm.listenerTopicPatterns l p }) ∨
    ((∃ listeners, nm.notifications[p]? = some listeners) ∧
      (addListener identify nm l p sm).fault = none ∧
      (addListener identify nm l p sm).state =
        { nm with listenerTopicPatterns := Index.add nm.listenerTopicPatterns l p }) := by
  have hregister : ∀ nm : NotificationManager ρ,
      (registerListener identify nm l p sm).fault = none ∧
      (registerListener identify nm l p sm).state =
        { nm with listenerTopicPatterns := Index.add nm.listenerTopicPatterns l p } := by
    intro nm
    unfold registerListener
    simp only
    split <;> exact ⟨rfl, rfl⟩
  unfold addListener
  cases hrow : nm.notifications[p]? with
  | none =>
      cases hregex : (RegexEngine.compile p : Option ρ) with
      | none => exact .inl ⟨rfl, rfl, rfl⟩
      | some regex => exact .inr (.inl ⟨regex, rfl, rfl, hregister _⟩)
  | some listeners => exact .inr (.inr ⟨⟨listeners, rfl⟩, hregister nm⟩)

/-- Everything a remove can do to the tables, as for `removeSubscription`. -/
theorem removeListener_cases (nm : NotificationManager ρ) (l : Ptr) (p : Bytes) :
    (Table.cell nm.notifications p l = none ∧ nm.removeListener l p = nm) ∨
    (∃ c, Table.cell nm.notifications p l = some c ∧ 0 < int (c - 1) ∧
      nm.removeListener l p = nm) ∨
    (∃ c, Table.cell nm.notifications p l = some c ∧ ¬ 0 < int (c - 1) ∧
      (∀ l', l ≠ l' → Table.cell nm.notifications p l' = none) ∧
      nm.removeListener l p =
        { notifications := nm.notifications.erase p
          regexCache := nm.regexCache.erase p
          listenerTopicPatterns := Index.remove nm.listenerTopicPatterns l p }) ∨
    (∃ c, Table.cell nm.notifications p l = some c ∧ ¬ 0 < int (c - 1) ∧
      (∃ l', l ≠ l' ∧ (Table.cell nm.notifications p l').isSome) ∧
      nm.removeListener l p =
        { nm with listenerTopicPatterns := Index.remove nm.listenerTopicPatterns l p }) := by
  have hrelease : nm.removeListener l p =
      Table.release nm.notifications p l (fun c => 0 < int (c - 1)) nm
        { notifications := nm.notifications.erase p
          regexCache := nm.regexCache.erase p
          listenerTopicPatterns := Index.remove nm.listenerTopicPatterns l p }
        { nm with listenerTopicPatterns := Index.remove nm.listenerTopicPatterns l p } := by
    unfold removeListener Table.release
    cases nm.notifications[p]? with
    | none => rfl
    | some row =>
        simp only
        cases row[l]? <;> rfl
  rw [hrelease]
  exact Table.release_cases _ _ _ _ _ _ _

theorem foldl_closePattern_fst (l : Ptr) (ps : List Bytes)
    (acc : OrdMap Bytes (OrdMap Ptr Int) × OrdMap Bytes ρ) :
    (ps.foldl (closePattern l) acc).1 = ps.foldl (Table.dropCell l) acc.1 := by
  induction ps generalizing acc with
  | nil => rfl
  | cons p ps ih =>
      have hround : (closePattern l acc p).1 = Table.dropCell l acc.1 p := by
        unfold closePattern Table.dropCell
        cases acc.1[p]? with
        | none => rfl
        | some listeners => simp only []; split <;> rfl
      rw [List.foldl_cons, List.foldl_cons, ih, hround]

/-- A disconnect only takes regular expressions out of the cache. -/
theorem mem_foldl_closePattern {i : Ptr} {ps : List Bytes}
    {acc : OrdMap Bytes (OrdMap Ptr Int) × OrdMap Bytes ρ} {q : Bytes}
    (h : q ∈ (ps.foldl (closePattern i) acc).2) : q ∈ acc.2 := by
  induction ps generalizing acc with
  | nil => exact h
  | cons p ps ih =>
      have hround := ih h
      unfold closePattern at hround
      split at hround
      · exact hround
      · split at hround
        · exact Std.ExtTreeMap.mem_of_mem_erase hround
        · exact hround

/-- A disconnect clears the listener's cells in exactly the patterns the reverse table lists, and
its entry there. -/
theorem closed_onInteractorClosed (nm : NotificationManager ρ) (l : Ptr) :
    Table.Closed nm.notifications (nm.onInteractorClosed l).notifications
      nm.listenerTopicPatterns (nm.onInteractorClosed l).listenerTopicPatterns l := by
  unfold onInteractorClosed
  cases h : nm.listenerTopicPatterns[l]? with
  | none => exact Table.closed_of_no_entry h
  | some topicPatterns =>
      simp only [foldl_closePattern_fst]
      exact Table.closed_of_entry h

/-! ## The cache of regular expressions -/

section

variable [RegexEngine ρ] {nm : NotificationManager ρ}

/-- **The cache goes with the rows**: it holds what compiling the pattern of a row has given, which
is nothing for a malformed one, and nothing else. -/
def Compiled (notifications : OrdMap Bytes (OrdMap Ptr Int)) (regexCache : OrdMap Bytes ρ) : Prop :=
  ∀ p, regexCache[p]? = if p ∈ notifications then RegexEngine.compile p else none

theorem compiled_empty : Compiled (∅ : OrdMap Bytes (OrdMap Ptr Int)) (∅ : OrdMap Bytes ρ) := by
  intro p
  simp

variable {notifications : OrdMap Bytes (OrdMap Ptr Int)} {regexCache : OrdMap Bytes ρ} {p : Bytes}

/-- Changing a row that is there changes nothing about the cache. -/
theorem Compiled.insert (h : Compiled notifications regexCache) (hp : p ∈ notifications)
    (row : OrdMap Ptr Int) : Compiled (notifications.insert p row) regexCache := by
  intro q
  have hq := h q
  by_cases heq : p = q
  · subst heq
    simpa [hp] using hq
  · simpa [heq] using hq

theorem Compiled.erase (h : Compiled notifications regexCache) (p : Bytes) :
    Compiled (notifications.erase p) (regexCache.erase p) := by
  intro q
  have hq := h q
  by_cases heq : p = q
  · subst heq
    simp
  · simpa [heq, OrdMap.get_erase] using hq

theorem Compiled.closePattern {acc : OrdMap Bytes (OrdMap Ptr Int) × OrdMap Bytes ρ}
    (h : Compiled acc.1 acc.2) (l : Ptr) (p : Bytes) :
    Compiled (closePattern l acc p).1 (closePattern l acc p).2 := by
  unfold NotificationManager.closePattern
  split
  · exact h
  · next listeners hrow =>
    split
    · exact h.erase p
    · exact h.insert (OrdMap.mem_iff_get.mpr ⟨listeners, hrow⟩) _

theorem Compiled.addListener (h : Compiled nm.notifications nm.regexCache)
    (identify : Ptr → Identity) (l : Ptr) (p : Bytes) (sm : SubscriptionManager) :
    Compiled (addListener identify nm l p sm).state.notifications
      (addListener identify nm l p sm).state.regexCache := by
  rcases addListener_cases identify nm l p sm with ⟨hrow, hnone, hadd⟩ |
    ⟨regex, hrow, hregex, -, hstate⟩ | ⟨-, -, hstate⟩
  · -- The row of a malformed pattern has nothing to go with it.
    rw [hadd]
    intro q
    have hq : nm.regexCache[q]? = _ := h q
    by_cases heq : p = q
    · subst heq
      simpa [hnone] using hq
    · simpa [heq] using hq
  · rw [hstate]
    have hnot : p ∉ nm.regexCache := by
      have hp := h p
      have hnot : p ∉ nm.notifications := by simpa using hrow
      rw [if_neg hnot] at hp
      simpa using hp
    intro q
    have hq := h q
    show (nm.regexCache.insertIfNew p regex)[q]? = _
    rw [OrdMap.get_insertIfNew]
    by_cases heq : p = q
    · subst heq
      simp [hnot, hregex]
    · simpa [heq] using hq
  · rw [hstate]
    exact h

theorem Compiled.removeListener (h : Compiled nm.notifications nm.regexCache) (l : Ptr)
    (p : Bytes) :
    Compiled (nm.removeListener l p).notifications (nm.removeListener l p).regexCache := by
  rcases removeListener_cases nm l p with ⟨-, hrem⟩ | ⟨c, -, -, hrem⟩ | ⟨c, -, -, -, hrem⟩ |
    ⟨c, -, -, -, hrem⟩ <;> rw [hrem]
  · exact h
  · exact h
  · exact h.erase p
  · exact h

theorem Compiled.onListen (h : Compiled nm.notifications nm.regexCache)
    (identify : Ptr → Identity) (l : Ptr) (request : NotificationRequest)
    (sm : SubscriptionManager) :
    Compiled (onListen identify nm l request sm).state.notifications
      (onListen identify nm l request sm).state.regexCache := by
  unfold NotificationManager.onListen
  split
  · exact h.addListener identify l request.topicPattern sm
  · exact h.removeListener l request.topicPattern

theorem Compiled.close (h : Compiled nm.notifications nm.regexCache) (l : Ptr) :
    Compiled (nm.onInteractorClosed l).notifications (nm.onInteractorClosed l).regexCache := by
  have hloop : ∀ (ps : List Bytes) (acc : OrdMap Bytes (OrdMap Ptr Int) × OrdMap Bytes ρ),
      Compiled acc.1 acc.2 → Compiled (ps.foldl (NotificationManager.closePattern l) acc).1
        (ps.foldl (NotificationManager.closePattern l) acc).2 := by
    intro ps
    induction ps with
    | nil => exact fun _ hacc => hacc
    | cons p ps ih => exact fun acc hacc => ih _ (hacc.closePattern l p)
  unfold onInteractorClosed
  split
  · exact h
  · exact hloop _ _ h

end

end NotificationManager

end SquawkBus.Server
