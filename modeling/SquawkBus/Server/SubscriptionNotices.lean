import SquawkBus.Server.SubscriptionCounts

/-!
# Notices of subscriptions

The calls of `notify` along a run of requests and disconnects, against the account of the requests.
They should be the changes of the account: a yes when a client becomes subscribed to a topic, a no
when it stops to be, so that for each of the two they take turns. An add reports right. A remove and
a disconnect send their no only when the whole topic is erased, that is when nobody else is
subscribed to it.
-/

namespace SquawkBus.Server

open SquawkBus.Messages

/-! ## The statement -/

/-- What the notice says of the subscriber and the topic, if it is about them. -/
def Notice.about (subscriber : Ptr) (topic : Bytes) (notice : Notice) : Option Bool :=
  if notice.subscriber = subscriber ∧ notice.topic = topic then some notice.isAdd else none

namespace SubscriptionManager

/-- The calls of `notify` an operation makes. -/
def notices (sm : SubscriptionManager) : SubscriptionOp → List Notice
  | .request s r => (sm.onSubscription s r).2
  | .closed s => (sm.onInteractorClosed s).2

/-- The calls of `notify` in a run of operations. -/
def runNotices : SubscriptionManager → List SubscriptionOp → List Notice
  | _, [] => []
  | sm, op :: ops => sm.notices op ++ runNotices (sm.step op) ops

/-- Whether the account has `s` subscribed to `t`. -/
def subscribed (balance : Ptr → Bytes → Nat) (s : Ptr) (t : Bytes) : Bool := 0 < balance s t

/-- **Paired notices**: the calls of `notify` in each step are the changes of who is subscribed to
what, and so for each subscriber and topic they alternate, starting with a yes. -/
structure Paired (ops : List SubscriptionOp) : Prop where
  steps : ∀ pre op, pre ++ [op] <+: ops → ∀ s t,
    ((run pre).notices op).filterMap (Notice.about s t) =
      Run.edge (subscribed (balance pre) s t) (subscribed (balance (pre ++ [op])) s t)
  alternate : ∀ s t, Run.Alternates true ((runNotices empty ops).filterMap (Notice.about s t))

/-- The operations that report right. A remove of the last reference has to find a stored count of
one and no other client of the topic, and any other remove must not. A disconnect has to find all
the topics of the client in the reverse table, and no other client in any of them. -/
def ReportsRight (sm : SubscriptionManager) (balance : Ptr → Bytes → Nat) : SubscriptionOp → Prop
  | .request s r => r.isAdd = false → ∀ c, Table.cell sm.subscriptions r.topic s = some c →
      (balance s r.topic = 1 ↔
        ¬ 0 < int (c - 1) ∧ ∀ s', s ≠ s' → Table.cell sm.subscriptions r.topic s' = none)
  | .closed s => ∀ t, 0 < balance s t → Index.Has sm.subscriberTopics s t ∧
      ∀ s', s ≠ s' → Table.cell sm.subscriptions t s' = none

/-! ## The notices of one operation -/

theorem about_self (s : Ptr) (t : Bytes) (isAdd : Bool) :
    [(⟨s, t, isAdd⟩ : Notice)].filterMap (Notice.about s t) = [isAdd] := by
  simp [Notice.about]

theorem about_other {s s' : Ptr} {t t' : Bytes} (h : ¬ (s = s' ∧ t = t')) (isAdd : Bool) :
    [(⟨s, t, isAdd⟩ : Notice)].filterMap (Notice.about s' t') = [] := by
  simp only [Notice.about, List.filterMap_cons, List.filterMap_nil, if_neg h]

/-- An add reports a client that is new to the topic. -/
theorem notices_addSubscription (sm : SubscriptionManager) (s : Ptr) (t : Bytes) :
    (sm.addSubscription s t).2 =
      if Table.cell sm.subscriptions t s = none then [⟨s, t, true⟩] else [] := by
  show (addForward sm.subscriptions s t).2 = _
  unfold addForward
  cases hrow : sm.subscriptions[t]? with
  | none => simp [Table.cell_of_no_row hrow]
  | some subscribers =>
      rw [Table.cell_of_row hrow]
      cases hc : subscribers[s]? <;> simp [hc]

/-- The loop of a disconnect reports the topics in which nobody else is left. -/
theorem about_foldl_closeTopic (s s' : Ptr) (t : Bytes) {ts : List Bytes} (hts : ts.Nodup)
    (acc : OrdMap Bytes (OrdMap Ptr Int) × List Notice) :
    (ts.foldl (closeTopic s) acc).2.filterMap (Notice.about s' t) =
      acc.2.filterMap (Notice.about s' t) ++
        if s = s' ∧ t ∈ ts ∧ acc.1[t]?.any (fun row => (row.erase s).isEmpty) then [false]
        else [] := by
  induction ts generalizing acc with
  | nil => simp
  | cons t₀ ts ih =>
      obtain ⟨hnew, hts⟩ := List.nodup_cons.mp hts
      rw [List.foldl_cons, ih hts]
      -- The round at `t₀` changes the row of `t₀` only, and reports nothing else.
      by_cases ht : t₀ = t
      · subst ht
        unfold closeTopic
        cases hrow : acc.1[t₀]? with
        | none => simp [hrow, hnew]
        | some row =>
            by_cases hempty : (row.erase s).isEmpty
            · by_cases hs : s = s'
              · subst hs
                simp [hempty, hnew, Notice.about]
              · simp [hempty, hnew, hs, Notice.about]
            · simp [hempty, hnew]
      · have hrow : (closeTopic s acc t₀).1[t]? = acc.1[t]? := by
          unfold closeTopic
          split
          · rfl
          · split
            · rw [OrdMap.get_erase, if_neg ht]
            · rw [OrdMap.get_insert, if_neg ht]
        have hnotices : (closeTopic s acc t₀).2.filterMap (Notice.about s' t) =
            acc.2.filterMap (Notice.about s' t) := by
          unfold closeTopic
          split
          · rfl
          · split
            · rw [List.filterMap_append, about_other fun heq => ht heq.2, List.append_nil]
            · rfl
        rw [hrow, hnotices]
        simp [Ne.symm ht]

/-- A disconnect reports the topics of the client, as its entry lists them, in which nobody else is
left. -/
theorem about_removeInteractor (sm : SubscriptionManager) (s s' : Ptr) (t : Bytes) :
    (sm.removeInteractor s).2.filterMap (Notice.about s' t) =
      if s = s' ∧ Index.Has sm.subscriberTopics s t ∧
        sm.subscriptions[t]?.any (fun row => (row.erase s).isEmpty) then [false] else [] := by
  unfold removeInteractor
  cases htopics : sm.subscriberTopics[s]? with
  | none => simp [Index.Has, htopics]
  | some topics =>
      simp only [about_foldl_closeTopic s s' t topics.nodup_toList, Index.has_of_entry htopics,
        Std.ExtTreeSet.mem_toList, List.filterMap_nil, List.nil_append]

/-! ## The relation carried along a run -/

/-- The clients entered are those with a balance, and the reverse table lists nobody else. -/
structure Entered (sm : SubscriptionManager) (balance : Ptr → Bytes → Nat) : Prop where
  cells : ∀ s t, Table.cell sm.subscriptions t s = none ↔ balance s t = 0
  topics : ∀ s t, Index.Has sm.subscriberTopics s t → 0 < balance s t

/-- The notices of an operation are the changes of the account. -/
def Reports (sm : SubscriptionManager) (balance : Ptr → Bytes → Nat) (op : SubscriptionOp) : Prop :=
  ∀ s t, (sm.notices op).filterMap (Notice.about s t) =
    Run.edge (subscribed balance s t) (subscribed (Ledger.apply balance op.entry) s t)

theorem entered_empty : Entered empty fun _ _ => 0 where
  cells s t := by simp [empty]
  topics s t h := absurd h (Index.not_has_empty s t)

section

variable {sm : SubscriptionManager} {balance : Ptr → Bytes → Nat} {s : Ptr} {t : Bytes}

theorem Entered.subscribed (h : Entered sm balance) (s : Ptr) (t : Bytes) :
    SubscriptionManager.subscribed balance s t = (Table.cell sm.subscriptions t s).isSome := by
  rw [Bool.eq_iff_iff, Option.isSome_iff_ne_none, ne_eq, h.cells]
  simp only [SubscriptionManager.subscribed, decide_eq_true_iff]
  omega

/-! ### Subscribing -/

theorem Entered.add (h : Entered sm balance) (s : Ptr) (t : Bytes) :
    Entered (sm.addSubscription s t).1 (Ledger.apply balance (.acquire s t)) where
  cells s' t' := by
    rw [cell_addSubscription, Ledger.apply_acquire]
    by_cases hst : s = s' ∧ t = t'
    · rw [if_pos hst.symm, if_pos hst]
      simp
    · rw [if_neg fun hts => hst hts.symm, if_neg hst, h.cells]
  topics s' t' hhas := by
    rw [subscriberTopics_addSubscription, Index.has_add] at hhas
    rw [Ledger.apply_acquire]
    split
    · exact Nat.succ_pos _
    · next hst => exact h.topics s' t' (hhas.resolve_left hst)

/-- **An add reports right.** -/
theorem Entered.reports_add (h : Entered sm balance) (s : Ptr) (t : Bytes) :
    Reports sm balance (.request s ⟨t, true⟩) := by
  intro s' t'
  show (sm.addSubscription s t).2.filterMap _ =
    Run.edge _ (SubscriptionManager.subscribed (Ledger.apply balance (.acquire s t)) s' t')
  rw [notices_addSubscription, h.subscribed, (h.add s t).subscribed]
  by_cases hst : s = s' ∧ t = t'
  · obtain ⟨rfl, rfl⟩ := hst
    have hentered : (Table.cell (sm.addSubscription s t).1.subscriptions t s).isSome := by
      simp [cell_addSubscription]
    rw [hentered]
    cases Table.cell sm.subscriptions t s with
    | none =>
        rw [if_pos rfl, about_self]
        rfl
    | some c => rfl
  · have hsame : Table.cell (sm.addSubscription s t).1.subscriptions t' s' =
        Table.cell sm.subscriptions t' s' := by
      rw [cell_addSubscription, if_neg fun hts => hst hts.symm]
    rw [hsame, Run.edge_self]
    split
    · exact about_other hst true
    · rfl

/-- A remove reports a stored count that runs out, when nobody else is left. -/
theorem notices_removeSubscription {c : Int} (hc : Table.cell sm.subscriptions t s = some c) :
    ((sm.removeSubscription s t).2 = [⟨s, t, false⟩] ∧ ¬ 0 < int (c - 1) ∧
        ∀ s', s ≠ s' → Table.cell sm.subscriptions t s' = none) ∨
      ((sm.removeSubscription s t).2 = [] ∧ ¬ (¬ 0 < int (c - 1) ∧
        ∀ s', s ≠ s' → Table.cell sm.subscriptions t s' = none)) := by
  rcases removeSubscription_cases sm s t with ⟨hnone, -⟩ | ⟨c', hc', hpos, hrem⟩ |
    ⟨c', hc', hpos, honly, hrem⟩ | ⟨c', hc', -, ⟨s', hs, hsome⟩, hrem⟩
  · rw [hc] at hnone
    cases hnone
  · rw [hc] at hc'
    cases hc'
    exact .inr ⟨by rw [hrem], fun hlast => hlast.1 hpos⟩
  · rw [hc] at hc'
    cases hc'
    exact .inl ⟨by rw [hrem], hpos, honly⟩
  · refine .inr ⟨by rw [hrem], fun hlast => ?_⟩
    rw [hlast.2 s' hs] at hsome
    cases hsome

/-! ### Unsubscribing -/

/-- **When a remove reports right.** -/
theorem Entered.reports_remove_iff (h : Entered sm balance) (s : Ptr) (t : Bytes) :
    Reports sm balance (.request s ⟨t, false⟩) ↔
      sm.ReportsRight balance (.request s ⟨t, false⟩) := by
  have hentry : SubscriptionOp.entry (.request s ⟨t, false⟩) = .release s t := rfl
  have hnotices : sm.notices (.request s ⟨t, false⟩) = (sm.removeSubscription s t).2 := rfl
  unfold Reports
  rw [hentry, hnotices]
  cases hc : Table.cell sm.subscriptions t s with
  | none =>
      have hzero := (h.cells s t).mp hc
      rw [Ledger.apply_release_of_zero hzero, removeSubscription_of_none hc]
      simp [ReportsRight, hc]
  | some c =>
      have hpos : 0 < balance s t := by
        refine Nat.pos_of_ne_zero fun hzero => ?_
        rw [(h.cells s t).mpr hzero] at hc
        cases hc
      -- For the pair itself, the account changes when the last reference goes.
      have hlast : Run.edge (SubscriptionManager.subscribed balance s t)
          (SubscriptionManager.subscribed (Ledger.apply balance (.release s t)) s t) =
            if balance s t = 1 then [false] else [] := by
        have hafter : 0 < balance s t - 1 ↔ balance s t ≠ 1 := by omega
        simp only [SubscriptionManager.subscribed, Ledger.apply_release, and_self, if_true, hafter,
          hpos, Run.edge]
        by_cases hone : balance s t = 1 <;> simp [hone]
      have hother : ∀ {s' : Ptr} {t' : Bytes}, ¬ (s = s' ∧ t = t') →
          Run.edge (SubscriptionManager.subscribed balance s' t')
            (SubscriptionManager.subscribed (Ledger.apply balance (.release s t)) s' t') = [] := by
        intro s' t' hst
        rw [SubscriptionManager.subscribed, SubscriptionManager.subscribed, Ledger.apply_release,
          if_neg hst, Run.edge_self]
      have hright : sm.ReportsRight balance (.request s ⟨t, false⟩) ↔
          (balance s t = 1 ↔ ¬ 0 < int (c - 1) ∧
            ∀ s', s ≠ s' → Table.cell sm.subscriptions t s' = none) := by
        simp [ReportsRight, hc]
      rw [hright]
      rcases notices_removeSubscription hc with ⟨hnotice, hends⟩ | ⟨hnotice, hstays⟩ <;>
        rw [hnotice]
      · rw [iff_true_right hends]
        constructor
        · intro hreports
          have hself := hreports s t
          rw [about_self, hlast] at hself
          by_contra hone
          rw [if_neg hone] at hself
          cases hself
        · intro hone s' t'
          by_cases hst : s = s' ∧ t = t'
          · obtain ⟨rfl, rfl⟩ := hst
            rw [about_self, hlast, if_pos hone]
          · rw [about_other hst, hother hst]
      · rw [iff_false_right hstays]
        constructor
        · intro hreports hone
          have hself := hreports s t
          rw [hlast, if_pos hone] at hself
          cases hself
        · intro hone s' t'
          by_cases hst : s = s' ∧ t = t'
          · obtain ⟨rfl, rfl⟩ := hst
            rw [hlast, if_neg hone]
            rfl
          · rw [hother hst]
            rfl

/-- A remove that reports right keeps the tables in step. -/
theorem Entered.remove (h : Entered sm balance)
    (hright : sm.ReportsRight balance (.request s ⟨t, false⟩)) :
    Entered (sm.removeSubscription s t).1 (Ledger.apply balance (.release s t)) := by
  -- The reverse entry goes only with the last reference.
  have htopics : balance s t = 1 → ∀ s' t',
      Index.Has (Index.remove sm.subscriberTopics s t) s' t' →
        0 < Ledger.apply balance (.release s t) s' t' := by
    intro hone s' t' hhas
    rw [Index.has_remove] at hhas
    rw [Ledger.apply_release, if_neg hhas.1]
    exact h.topics s' t' hhas.2
  -- Where the account keeps a reference nothing has to change.
  have hkept : balance s t ≠ 1 → Entered sm (Ledger.apply balance (.release s t)) := by
    intro hone
    have hpos : ∀ s' t', 0 < Ledger.apply balance (.release s t) s' t' ↔ 0 < balance s' t' := by
      intro s' t'
      rw [Ledger.apply_release]
      split
      · next hst =>
        obtain ⟨rfl, rfl⟩ := hst
        omega
      · rfl
    refine ⟨fun s' t' => ?_, fun s' t' hhas => (hpos s' t').mpr (h.topics s' t' hhas)⟩
    have hiff := hpos s' t'
    rw [h.cells]
    omega
  rcases removeSubscription_cases sm s t with ⟨hnone, hrem⟩ | ⟨c, hc, hpos, hrem⟩ |
    ⟨c, hc, hpos, honly, hrem⟩ | ⟨c, hc, hpos, ⟨s₀, hs₀, hsome⟩, hrem⟩ <;> rw [hrem]
  · have hzero := (h.cells s t).mp hnone
    exact hkept (by omega)
  · exact hkept fun hone => ((hright rfl c hc).mp hone).1 hpos
  · have hone : balance s t = 1 := (hright rfl c hc).mpr ⟨hpos, honly⟩
    refine ⟨fun s' t' => ?_, htopics hone⟩
    rw [Table.cell_erase, Ledger.apply_release]
    by_cases ht : t = t'
    · subst ht
      by_cases hs : s = s'
      · subst hs
        simp [hone]
      · simp [hs, (h.cells s' t).mp (honly s' hs)]
    · simp [ht, h.cells]
  · have hone : balance s t ≠ 1 := by
      intro hone
      rw [((hright rfl c hc).mp hone).2 s₀ hs₀] at hsome
      cases hsome
    obtain ⟨hcells, htopics⟩ := hkept hone
    exact ⟨hcells, fun s' t' hhas => htopics s' t' ((Index.has_remove _ _ _ _ _).mp hhas).2⟩

/-! ### Leaving -/

/-- **When a disconnect reports right.** -/
theorem Entered.reports_close_iff (h : Entered sm balance) (s : Ptr) :
    Reports sm balance (.closed s) ↔ sm.ReportsRight balance (.closed s) := by
  have hentry : SubscriptionOp.entry (.closed s) = .dropAll s := rfl
  have hnotices : sm.notices (.closed s) = (sm.removeInteractor s).2 := rfl
  unfold Reports
  rw [hentry, hnotices]
  -- Nobody else left, where the client itself is entered.
  have halone : ∀ t, 0 < balance s t →
      ((sm.subscriptions[t]?.any fun row => (row.erase s).isEmpty) ↔
        ∀ s', s ≠ s' → Table.cell sm.subscriptions t s' = none) := by
    intro t hpos
    cases hrow : sm.subscriptions[t]? with
    | none =>
        have hzero := (h.cells s t).mp (Table.cell_of_no_row hrow s)
        omega
    | some row =>
        simp only [Option.any_some, OrdMap.isEmpty_erase_iff, Table.cell_of_row hrow]
  have hchange : ∀ s' t, Run.edge (SubscriptionManager.subscribed balance s' t)
      (SubscriptionManager.subscribed (Ledger.apply balance (.dropAll s)) s' t) =
        if s = s' ∧ 0 < balance s t then [false] else [] := by
    intro s' t
    rw [SubscriptionManager.subscribed, SubscriptionManager.subscribed, Ledger.apply_dropAll]
    by_cases hs : s = s'
    · subst hs
      by_cases hpos : 0 < balance s t <;> simp [hpos, Run.edge]
    · simp [hs]
  constructor
  · intro hreports t hpos
    have hself := hreports s t
    have hedge := hchange s t
    rw [if_pos ⟨rfl, hpos⟩] at hedge
    rw [about_removeInteractor, hedge] at hself
    split at hself
    · next hnotice => exact ⟨hnotice.2.1, (halone t hpos).mp hnotice.2.2⟩
    · cases hself
  · intro hright s' t
    rw [about_removeInteractor, hchange]
    refine if_congr ?_ rfl rfl
    refine and_congr_right fun _ => ⟨fun hnotice => h.topics s t hnotice.1, fun hpos => ?_⟩
    obtain ⟨hhas, honly⟩ := hright t hpos
    exact ⟨hhas, (halone t hpos).mpr honly⟩

/-- A disconnect that reports right keeps the tables in step. -/
theorem Entered.close (h : Entered sm balance) (hright : sm.ReportsRight balance (.closed s)) :
    Entered (sm.removeInteractor s).1 (Ledger.apply balance (.dropAll s)) where
  cells s' t := by
    rw [(closed_removeInteractor sm s).cells, Ledger.apply_dropAll]
    by_cases hs : s = s'
    · subst hs
      rcases Nat.eq_zero_or_pos (balance s t) with hzero | hpos
      · simp [(h.cells s t).mpr hzero]
      · simp [(hright t hpos).1]
    · simp [hs, h.cells]
  topics s' t hhas := by
    obtain ⟨hs, hhas⟩ := ((closed_removeInteractor sm s).has s' t).mp hhas
    rw [Ledger.apply_dropAll, if_neg hs]
    exact h.topics s' t hhas

/-! ## Runs -/

theorem Entered.reports_iff (h : Entered sm balance) (op : SubscriptionOp) :
    Reports sm balance op ↔ sm.ReportsRight balance op := by
  rcases op with ⟨s, t, _ | _⟩ | s
  · exact h.reports_remove_iff s t
  · exact ⟨fun _ hremove => (nomatch hremove), fun _ => h.reports_add s t⟩
  · exact h.reports_close_iff s

theorem Entered.step (h : Entered sm balance) {op : SubscriptionOp}
    (hright : sm.ReportsRight balance op) :
    Entered (sm.step op) (Ledger.apply balance op.entry) := by
  rcases op with ⟨s, t, _ | _⟩ | s
  · exact h.remove hright
  · exact h.add s t
  · exact h.close hright

end

/-- The tables and the account side by side. -/
def sideBySide (state : SubscriptionManager × (Ptr → Bytes → Nat)) (op : SubscriptionOp) :
    SubscriptionManager × (Ptr → Bytes → Nat) :=
  (state.1.step op, Ledger.apply state.2 op.entry)

theorem foldl_sideBySide (ops : List SubscriptionOp) :
    ops.foldl sideBySide (empty, fun _ _ => 0) = (run ops, balance ops) := by
  induction ops using List.reverseRecOn with
  | nil => rfl
  | append_singleton ops op ih =>
      rw [List.foldl_append, ih]
      simp [sideBySide, run, balance]

/-- The notices of a run that reports right are the changes of the account. -/
theorem about_runNotices (s : Ptr) (t : Bytes) {sm : SubscriptionManager}
    {b : Ptr → Bytes → Nat} {ops : List SubscriptionOp}
    (h : Run.Meets sideBySide (fun state op => Reports state.1 state.2 op) (sm, b) ops) :
    (runNotices sm ops).filterMap (Notice.about s t) =
      Run.edges (fun b op => Ledger.apply b (SubscriptionOp.entry op)) (fun b => subscribed b s t) b
        ops := by
  induction ops generalizing sm b with
  | nil => rfl
  | cons op ops ih =>
      obtain ⟨hreports, hrest⟩ := Run.meets_cons.mp h
      rw [runNotices, List.filterMap_append, hreports s t, ih hrest]
      rfl

/-- **When the notices are paired**: exactly when every operation of the run reports right. -/
theorem paired_iff (ops : List SubscriptionOp) :
    Paired ops ↔ ∀ pre op, pre ++ [op] <+: ops → (run pre).ReportsRight (balance pre) op := by
  have hreports : (∀ pre op, pre ++ [op] <+: ops → ∀ s t,
      ((run pre).notices op).filterMap (Notice.about s t) =
        Run.edge (subscribed (balance pre) s t) (subscribed (balance (pre ++ [op])) s t)) ↔
      Run.Meets sideBySide (fun state op => Reports state.1 state.2 op) (empty, fun _ _ => 0)
        ops := by
    simp [Run.Meets, foldl_sideBySide, Reports, balance]
  have hright : (∀ pre op, pre ++ [op] <+: ops → (run pre).ReportsRight (balance pre) op) ↔
      Run.Meets sideBySide (fun state op => state.1.ReportsRight state.2 op)
        (empty, fun _ _ => 0) ops := by
    simp [Run.Meets, foldl_sideBySide]
  have hmeets : Run.Meets sideBySide (fun state op => Reports state.1 state.2 op)
        (empty, fun _ _ => 0) ops ↔
      Run.Meets sideBySide (fun state op => state.1.ReportsRight state.2 op)
        (empty, fun _ _ => 0) ops := by
    refine Run.meets_congr (fun state => Entered state.1 state.2) ?_ ?_ entered_empty ops
    · exact fun _ op h => h.reports_iff op
    · exact fun _ op h hok => h.step ((h.reports_iff op).mp hok)
  constructor
  · intro h
    exact hright.mpr (hmeets.mp (hreports.mp h.steps))
  · intro h
    have hall := hmeets.mpr (hright.mp h)
    refine ⟨hreports.mpr hall, fun s t => ?_⟩
    rw [about_runNotices s t hall]
    exact Run.alternates_edges (fun b op => Ledger.apply b (SubscriptionOp.entry op))
      (fun b => subscribed b s t) (fun _ _ => 0) ops

/-- Clients 1 and 2 subscribe to a topic and client 1 disconnects: nobody is told. -/
theorem departure_not_reported :
    ¬ Paired [.request 1 ⟨[65], true⟩, .request 2 ⟨[65], true⟩, .closed 1] := by
  intro h
  have hstep := h.steps [.request 1 ⟨[65], true⟩, .request 2 ⟨[65], true⟩] (.closed 1)
    (List.prefix_refl _) 1 [65]
  revert hstep
  decide

end SubscriptionManager

end SquawkBus.Server
