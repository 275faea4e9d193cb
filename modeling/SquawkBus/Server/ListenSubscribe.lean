import SquawkBus.Server.SubscriptionNotices
import SquawkBus.Server.Hub

/-!
# Listening and subscribing in either order

A listener hears of a subscription in one of two ways: the subscription is there when it listens,
and is reported from the table, or it comes later and is reported live. The two requests leave the
same tables in either order. They tell the listener once in either order when its pattern is new. On
a pattern that is there already the listener is not entered, so it hears nothing live: only what the
table reports at the time.
-/

namespace SquawkBus.Server

open SquawkBus.Messages

variable {ρ : Type} [RegexEngine ρ]

/-- How often `l` is told in these calls that `s` subscribes to `t`. -/
def timesTold (identify : Ptr → Identity) (l s : Ptr) (t : Bytes) (calls : List Call) : Nat :=
  calls.count (.send l (Hub.subscriptionNotice identify s t true))

theorem timesTold_append (identify : Ptr → Identity) (l s : Ptr) (t : Bytes)
    (calls calls' : List Call) :
    timesTold identify l s t (calls ++ calls') =
      timesTold identify l s t calls + timesTold identify l s t calls' :=
  List.count_append

/-! ## What the listener is told live -/

namespace NotificationManager

/-- A notice reaches each listener it finds once. -/
theorem timesTold_notify (identify : Ptr → Identity) (nm : NotificationManager ρ) (l s : Ptr)
    (t : Bytes) :
    timesTold identify l s t (nm.notify identify ⟨s, t, true⟩) =
      if l ∈ nm.findListeners t then 1 else 0 := by
  unfold notify timesTold
  simp only
  split
  · next hempty =>
    have hnil := List.isEmpty_iff.mp hempty
    rw [if_neg fun hl => ?_]
    · rfl
    · rw [← Std.ExtTreeSet.mem_toList, hnil] at hl
      cases hl
  · have honly : ∀ l' ∈ (nm.findListeners t).toList, l' ≠ l →
        Call.send l (Hub.subscriptionNotice identify s t true) ∉
          [Call.str s, .str l', .send l' (Hub.subscriptionNotice identify s t true)] := by
      intro l' _ hne
      simp [Ne.symm hne]
    have hcount := List.count_flatMap_of_only (nm.findListeners t).nodup_toList honly
    rw [List.count_append]
    have hasked : [Call.user s, .host s, .id s].count
        (.send l (Hub.subscriptionNotice identify s t true)) = 0 := by
      simp
    rw [hasked, Nat.zero_add]
    refine hcount.trans ?_
    simp only [Std.ExtTreeSet.mem_toList]
    congr 1
    simp

/-! ## What the listener is told from the table -/

/-- The calls that report one subscription. -/
def reportCalls (identify : Ptr → Identity) (l s : Ptr) (t : Bytes) : List Call :=
  [.user s, .host s, .id s, .send l (Hub.subscriptionNotice identify s t true)]

theorem send_mem_reportCalls {identify : Ptr → Identity} {l s s' : Ptr} {t t' : Bytes} :
    Call.send l (Hub.subscriptionNotice identify s t true) ∈ reportCalls identify l s' t' ↔
      identify s = identify s' ∧ t = t' := by
  have hidentity : identify s = identify s' ↔ (identify s).user = (identify s').user ∧
      (identify s).host = (identify s').host ∧ (identify s).id = (identify s').id := by
    cases identify s
    cases identify s'
    simp
  simp [reportCalls, Hub.subscriptionNotice, hidentity, and_assoc]

theorem events_registerListener (identify : Ptr → Identity) (nm : NotificationManager ρ)
    (l : Ptr) {p : Bytes} {regex : ρ} (sm : SubscriptionManager)
    (hregex : nm.regexCache[p]? = some regex) :
    (registerListener identify nm l p sm).events =
      (sm.subscriptions.toList.filter fun entry => RegexEngine.isMatch entry.1 regex).flatMap
        fun entry => entry.2.keys.flatMap fun s => reportCalls identify l s entry.1 := by
  unfold registerListener SubscriptionManager.findMatchingSubscriptions
  simp only [hregex, Outcome.emit_events, List.flatMap_map]
  rfl

/-- The tail of `add_listener` tells the listener once of each subscription to a matching topic,
provided the regular expression is there. -/
theorem timesTold_registerListener (identify : Ptr → Identity) (nm : NotificationManager ρ)
    (l s : Ptr) {p t : Bytes} {regex : ρ} (sm : SubscriptionManager)
    (hregex : nm.regexCache[p]? = some regex) (hmatch : RegexEngine.isMatch t regex)
    (hid : ∀ s', (identify s').id = (identify s).id → s' = s) :
    timesTold identify l s t (registerListener identify nm l p sm).events =
      if (Table.cell sm.subscriptions t s).isSome then 1 else 0 := by
  rw [events_registerListener identify nm l sm hregex]
  unfold timesTold
  -- Only the round of the topic, and in it only the round of the subscriber, can tell.
  have hround : ∀ s' t', Call.send l (Hub.subscriptionNotice identify s t true) ∈
      reportCalls identify l s' t' → s' = s ∧ t' = t := by
    intro s' t' hmem
    obtain ⟨hs, ht⟩ := send_mem_reportCalls.mp hmem
    exact ⟨hid s' (by rw [hs]), ht.symm⟩
  cases hrow : sm.subscriptions[t]? with
  | none =>
      rw [Table.cell_of_no_row hrow]
      refine List.count_eq_zero.mpr fun hmem => ?_
      obtain ⟨entry, hentry, hmem⟩ := List.mem_flatMap.mp hmem
      obtain ⟨s', -, hmem⟩ := List.mem_flatMap.mp hmem
      have hget := Std.ExtTreeMap.mem_toList_iff_getElem?_eq_some.mp (List.mem_filter.mp hentry).1
      rw [(hround s' entry.1 hmem).2, hrow] at hget
      cases hget
  | some row =>
      have hentry : (t, row) ∈ sm.subscriptions.toList.filter
          fun entry => RegexEngine.isMatch entry.1 regex :=
        List.mem_filter.mpr
          ⟨Std.ExtTreeMap.mem_toList_iff_getElem?_eq_some.mpr hrow, hmatch⟩
      have honly : ∀ entry ∈ sm.subscriptions.toList.filter
          (fun entry => RegexEngine.isMatch entry.1 regex), entry ≠ (t, row) →
          Call.send l (Hub.subscriptionNotice identify s t true) ∉
            entry.2.keys.flatMap fun s => reportCalls identify l s entry.1 := by
        rintro ⟨t', row'⟩ hentry' hne hmem
        obtain ⟨s', -, hmem⟩ := List.mem_flatMap.mp hmem
        obtain rfl : t' = t := (hround s' t' hmem).2
        have hget :=
          Std.ExtTreeMap.mem_toList_iff_getElem?_eq_some.mp (List.mem_filter.mp hentry').1
        rw [hrow] at hget
        cases hget
        exact hne rfl
      rw [List.count_flatMap_of_only (sm.subscriptions.nodup_toList.filter _) honly,
        if_pos hentry]
      have hothers : ∀ s' ∈ row.keys, s' ≠ s →
          Call.send l (Hub.subscriptionNotice identify s t true) ∉ reportCalls identify l s' t :=
        fun s' _ hne hmem => hne (hround s' t hmem).1
      rw [List.count_flatMap_of_only Std.ExtTreeMap.nodup_keys hothers, Table.cell_of_row hrow]
      refine if_congr ?_ (by simp [reportCalls]) rfl
      exact Std.ExtTreeMap.mem_keys.trans Std.ExtTreeMap.mem_iff_isSome_getElem?

/-! ## Listening -/

omit [RegexEngine ρ] in
/-- Nothing is registered for `l`: no pattern with a regular expression lists it. -/
def HasNoPattern (nm : NotificationManager ρ) (l : Ptr) : Prop :=
  ∀ p ∈ nm.regexCache.keys, Table.cell nm.notifications p l = none

omit [RegexEngine ρ] in
instance decidableHasNoPattern (nm : NotificationManager ρ) (l : Ptr) :
    Decidable (nm.HasNoPattern l) :=
  inferInstanceAs (Decidable (∀ p ∈ nm.regexCache.keys, _))

variable {nm : NotificationManager ρ} {l s : Ptr} {p t : Bytes} {regex : ρ}

omit [RegexEngine ρ] in
theorem HasNoPattern.cell (h : nm.HasNoPattern l) (hp : p ∈ nm.regexCache) :
    Table.cell nm.notifications p l = none :=
  h p (Std.ExtTreeMap.mem_keys.mpr hp)

theorem HasNoPattern.not_found (h : nm.HasNoPattern l) (t : Bytes) : l ∉ nm.findListeners t := by
  rw [mem_findListeners]
  rintro ⟨q, regex, hregex, -, hcell⟩
  rw [h.cell (OrdMap.mem_iff_get.mpr ⟨regex, hregex⟩)] at hcell
  cases hcell

/-- What becomes of the tables does not depend on the subscriptions. -/
theorem state_addListener (identify : Ptr → Identity) (nm : NotificationManager ρ) (l : Ptr)
    (p : Bytes) (sm sm' : SubscriptionManager) :
    (addListener identify nm l p sm).state = (addListener identify nm l p sm').state := by
  have hregister : ∀ nm : NotificationManager ρ, (registerListener identify nm l p sm).state =
      (registerListener identify nm l p sm').state := by
    intro nm
    unfold registerListener
    simp only
    split <;> rfl
  unfold addListener
  split
  · simp only
    split
    · rfl
    · exact hregister _
  · exact hregister _

/-- **A new listener is told of each subscription there is, once**, be its pattern new or not. -/
theorem timesTold_addListener (hcached : Compiled nm.notifications nm.regexCache)
    (identify : Ptr → Identity) (sm : SubscriptionManager)
    (hregex : RegexEngine.compile p = some regex) (hmatch : RegexEngine.isMatch t regex)
    (hid : ∀ s', (identify s').id = (identify s).id → s' = s) :
    timesTold identify l s t (addListener identify nm l p sm).events =
      if (Table.cell sm.subscriptions t s).isSome then 1 else 0 := by
  have hp := hcached p
  unfold addListener
  cases hrow : nm.notifications[p]? with
  | none =>
      have hnot : p ∉ nm.notifications := by simpa using hrow
      rw [if_neg hnot] at hp
      have hnew : p ∉ nm.regexCache := by simpa using hp
      have hcache : (nm.regexCache.insertIfNew p regex)[p]? = some regex := by
        rw [OrdMap.get_insertIfNew, if_pos ⟨rfl, hnew⟩]
      simp only [hregex]
      exact timesTold_registerListener identify _ l s sm hcache hmatch hid
  | some listeners =>
      rw [if_pos (OrdMap.mem_iff_get.mpr ⟨listeners, hrow⟩), hregex] at hp
      exact timesTold_registerListener identify nm l s sm hp hmatch hid

/-- **A listener is entered only under a pattern that is new.** -/
theorem found_addListener_iff (hcached : Compiled nm.notifications nm.regexCache)
    (hnone : nm.HasNoPattern l) (identify : Ptr → Identity) (sm : SubscriptionManager)
    (hregex : RegexEngine.compile p = some regex) (hmatch : RegexEngine.isMatch t regex) :
    l ∈ (addListener identify nm l p sm).state.findListeners t ↔ p ∉ nm.notifications := by
  rcases addListener_cases identify nm l p sm with ⟨-, hmalformed, -⟩ |
    ⟨regex', hrow, hregex', -, hstate⟩ | ⟨⟨listeners, hrow⟩, -, hstate⟩
  · rw [hregex] at hmalformed
    cases hmalformed
  · have hnot : p ∉ nm.notifications := by simpa using hrow
    have hcompiled := hcached.addListener identify l p sm
    refine ⟨fun _ => hnot, fun _ => mem_findListeners.mpr ⟨p, regex, ?_, hmatch, ?_⟩⟩
    · rw [hcompiled p, if_pos (by simp [hstate]), hregex]
    · simp [hstate, Table.cell_insert]
  · have hmem : p ∈ nm.notifications := OrdMap.mem_iff_get.mpr ⟨listeners, hrow⟩
    refine ⟨fun hfound => ?_, fun hnot => absurd hmem hnot⟩
    rw [hstate] at hfound
    exact absurd hfound (hnone.not_found t)

end NotificationManager

/-! ## The two requests -/

namespace Hub

/-- The hub's cache goes with its rows, in every state it reaches. -/
theorem compiled_after (identify : Ptr → Identity) (am : AuthorizationManager ρ)
    (steps : List (HubStep ρ)) :
    NotificationManager.Compiled ((new am).after identify steps).notificationManager.notifications
      ((new am).after identify steps).notificationManager.regexCache := by
  induction steps using List.reverseRecOn with
  | nil => exact NotificationManager.compiled_empty
  | append_singleton steps s ih =>
      rw [after_append]
      cases s with
      | message i message =>
          cases message with
          | notificationRequest request => exact ih.onListen identify i request _
          | _ => exact ih
      | connected i => exact ih
      | disconnected i => exact ih.close i
      | reload file =>
          show NotificationManager.Compiled
            (reload _ file).state.notificationManager.notifications
            (reload _ file).state.notificationManager.regexCache
          unfold reload
          split <;> exact ih

/-- The request of `l` to listen to a pattern. -/
def listen (l : Ptr) (p : Bytes) : HubStep ρ := .message l (.notificationRequest ⟨p, true⟩)

/-- The request of `s` to subscribe to a topic. -/
def subscribe (s : Ptr) (t : Bytes) : HubStep ρ := .message s (.subscriptionRequest ⟨t, true⟩)

/-- **The two requests commute**: in either order they tell the listener once, and leave the same
subscriptions and the same listeners. -/
structure ListenSubscribeCommute (identify : Ptr → Identity) (hub : Hub ρ) (l s : Ptr)
    (p t : Bytes) : Prop where
  listenFirst : timesTold identify l s t (hub.calls identify [listen l p, subscribe s t]) = 1
  subscribeFirst : timesTold identify l s t (hub.calls identify [subscribe s t, listen l p]) = 1
  subscriptions : (hub.after identify [listen l p, subscribe s t]).subscriptionManager =
    (hub.after identify [subscribe s t, listen l p]).subscriptionManager
  notifications : (hub.after identify [listen l p, subscribe s t]).notificationManager =
    (hub.after identify [subscribe s t, listen l p]).notificationManager

variable {hub : Hub ρ} {l s : Ptr} {p t : Bytes} {regex : ρ}

/-- A subscription is told live to a listener that is found, when it is new. -/
theorem timesTold_subscribe (identify : Ptr → Identity) (hub : Hub ρ) (l s : Ptr) (t : Bytes) :
    timesTold identify l s t (hub.step identify (subscribe s t)).events =
      if Table.cell hub.subscriptionManager.subscriptions t s = none ∧
        l ∈ hub.notificationManager.findListeners t then 1 else 0 := by
  have hevents : (hub.step identify (subscribe s t)).events = [.id s] ++
      (hub.subscriptionManager.addSubscription s t).2.flatMap
        (hub.notificationManager.notify identify) := rfl
  rw [hevents, timesTold_append, SubscriptionManager.notices_addSubscription]
  have hasked : timesTold identify l s t [.id s] = 0 := by simp [timesTold]
  rw [hasked, Nat.zero_add]
  split
  · next hnew =>
    rw [List.flatMap_singleton, NotificationManager.timesTold_notify]
    simp [hnew]
  · next hold =>
    rw [if_neg fun h => hold h.1]
    rfl

theorem timesTold_listen (identify : Ptr → Identity) (hub : Hub ρ) (l s : Ptr) (p t : Bytes) :
    timesTold identify l s t (hub.step identify (listen l p)).events =
      timesTold identify l s t (hub.notificationManager.addListener identify l p
        hub.subscriptionManager).events := by
  have hevents : (hub.step identify (listen l p)).events = [.id l] ++
      (hub.notificationManager.addListener identify l p hub.subscriptionManager).events := rfl
  have hasked : timesTold identify l s t [.id l] = 0 := by simp [timesTold]
  rw [hevents, timesTold_append, hasked, Nat.zero_add]

theorem timesTold_two (identify : Ptr → Identity) (hub : Hub ρ) (l s : Ptr) (t : Bytes)
    (first second : HubStep ρ) :
    timesTold identify l s t (hub.calls identify [first, second]) =
      timesTold identify l s t (hub.step identify first).events +
        timesTold identify l s t ((hub.step identify first).state.step identify second).events := by
  have hcalls : hub.calls identify [first, second] = (hub.step identify first).events ++
      (((hub.step identify first).state.step identify second).events ++ []) := rfl
  rw [hcalls, List.append_nil, timesTold_append]

/-! ### When they commute -/

/-- **When listening and subscribing commute**, for a listener without a pattern, in a reachable
hub: the pattern has to be new to the hub, unless the subscriber is there already. -/
theorem listenSubscribeCommute_iff (identify : Ptr → Identity) (am : AuthorizationManager ρ)
    (steps : List (HubStep ρ)) (l s : Ptr) (p t : Bytes)
    (hnone : ((new am).after identify steps).notificationManager.HasNoPattern l)
    (hmatches : Matches ρ p t) (hid : ∀ s', (identify s').id = (identify s).id → s' = s) :
    ListenSubscribeCommute identify ((new am).after identify steps) l s p t ↔
      p ∉ ((new am).after identify steps).notificationManager.notifications ∨
        s ∈ ((new am).after identify steps).subscriptionManager.findSubscribers t := by
  have hcached := compiled_after identify am steps
  generalize (new am).after identify steps = hub at hnone hcached
  obtain ⟨regex, hregex, hmatch⟩ := hmatches
  -- The live report after the listen, and the report from the table after the subscribe.
  have hlistened : timesTold identify l s t (hub.calls identify [listen l p, subscribe s t]) =
      (if (Table.cell hub.subscriptionManager.subscriptions t s).isSome then 1 else 0) +
        if Table.cell hub.subscriptionManager.subscriptions t s = none ∧
          p ∉ hub.notificationManager.notifications then 1 else 0 := by
    rw [timesTold_two, timesTold_listen, timesTold_subscribe,
      NotificationManager.timesTold_addListener hcached identify _ hregex hmatch hid]
    congr 1
    refine if_congr ?_ rfl rfl
    refine and_congr_right fun _ => ?_
    exact NotificationManager.found_addListener_iff hcached hnone identify _ hregex hmatch
  have hsubscribed : timesTold identify l s t (hub.calls identify [subscribe s t, listen l p]) =
      1 := by
    have hentered : (Table.cell (hub.subscriptionManager.addSubscription s t).1.subscriptions t
        s).isSome := by
      simp [SubscriptionManager.cell_addSubscription]
    have htold := NotificationManager.timesTold_addListener (l := l) hcached identify
      (hub.subscriptionManager.addSubscription s t).1 hregex hmatch hid
    rw [if_pos hentered] at htold
    rw [timesTold_two, timesTold_listen, timesTold_subscribe,
      if_neg fun h => hnone.not_found t h.2, Nat.zero_add]
    exact htold
  have hnotifications : (hub.after identify [listen l p, subscribe s t]).notificationManager =
      (hub.after identify [subscribe s t, listen l p]).notificationManager :=
    NotificationManager.state_addListener identify hub.notificationManager l p _ _
  rw [SubscriptionManager.mem_findSubscribers]
  constructor
  · intro h
    have hone := hlistened.symm.trans h.listenFirst
    by_contra hneither
    obtain ⟨hold, hcell⟩ := not_or.mp hneither
    rw [if_neg hcell, if_neg fun hnew => hold hnew.2] at hone
    cases hone
  · intro hcondition
    refine ⟨?_, hsubscribed, rfl, hnotifications⟩
    rw [hlistened]
    cases hcell : Table.cell hub.subscriptionManager.subscriptions t s with
    | none =>
        have hnew := hcondition.resolve_right (by simp [hcell])
        simp [hnew]
    | some c => simp

/-- Interactors with an id of their own. -/
def unary (i : Ptr) : Identity := ⟨ascii "user", ascii "host", List.replicate i 0⟩

theorem eq_of_unary {i j : Ptr} (h : (unary i).id = (unary j).id) : i = j := by
  simpa [unary] using congrArg List.length h

/-- Clients 3 and 4 share a topic and a pattern; client 1 listens to everything. -/
theorem listenSubscribeCommute_new_pattern :
    let hub : Hub PlainRegex := (new (.new none [])).after unary
      [subscribe 3 (ascii "A"), listen 4 (ascii "A")]
    ListenSubscribeCommute unary hub 1 2 (ascii ".*") (ascii "A") :=
  (listenSubscribeCommute_iff unary _ _ 1 2 _ _ (by decide) ⟨.anything, by decide, by decide⟩
    fun _ => eq_of_unary).mpr (.inl (by decide))

/-- Client 3 listens to a pattern, then client 1 does: client 1 is not told of the subscriptions
that follow. -/
theorem second_listener_not_told :
    let hub : Hub PlainRegex := (new (.new none [])).after unary [listen 3 (ascii "A")]
    hub.notificationManager.HasNoPattern 1 ∧
      2 ∉ hub.subscriptionManager.findSubscribers (ascii "A") ∧
      Matches PlainRegex (ascii "A") (ascii "A") ∧
      ¬ ListenSubscribeCommute unary hub 1 2 (ascii "A") (ascii "A") := by
  refine ⟨by decide, by decide, ⟨.literal (ascii "A"), by decide, by decide⟩, fun h => ?_⟩
  have htold := h.listenFirst
  revert htold
  decide

end Hub

end SquawkBus.Server
