import SquawkBus.Library.Run
import SquawkBus.Library.Ledger
import SquawkBus.Server.SubscriptionManager

/-!
# Subscription counts against the account of the requests

The counts of a `SubscriptionManager` compared, along a run of requests and disconnects, with the
balance that the requests alone prescribe. An add and a disconnect always keep the two together.
A remove keeps them together only in two cases, `RemovesLast`, because `removeSubscription`
decrements a copy of the count.
-/

namespace SquawkBus.Server

open SquawkBus.Messages

/-! ## Requests and counts -/

/-- What a client can do to its subscriptions. -/
inductive SubscriptionOp where
  | request (subscriber : Ptr) (request : SubscriptionRequest)
  | closed (subscriber : Ptr)

/-- The entry an operation makes in the account of subscribers and topics. -/
def SubscriptionOp.entry : SubscriptionOp → Ledger.Op Ptr Bytes
  | .request s r => if r.isAdd then .acquire s r.topic else .release s r.topic
  | .closed s => .dropAll s

namespace SubscriptionManager

def step (sm : SubscriptionManager) : SubscriptionOp → SubscriptionManager
  | .request s r => (sm.onSubscription s r).1
  | .closed s => (sm.onInteractorClosed s).1

/-- The manager after a run of operations, from empty tables. -/
def run (ops : List SubscriptionOp) : SubscriptionManager := ops.foldl step empty

/-- `subscriptions_[topic][subscriber]`, zero where the tables have no such entry. -/
def storedCount (sm : SubscriptionManager) (topic : Bytes) (subscriber : Ptr) : Int :=
  (Table.cell sm.subscriptions topic subscriber).getD 0

/-- **Reference counted**: the subscribers found are those with a positive balance, and each
stored count is the balance. -/
def Counts (sm : SubscriptionManager) (balance : Ptr → Bytes → Nat) : Prop :=
  ∀ s t, (s ∈ sm.findSubscribers t ↔ 0 < balance s t) ∧ sm.storedCount t s = balance s t

/-- The removes that keep the counts right: the subscriber is not in the table at all, or it is
the only subscriber of the topic and its stored count is one. -/
def RemovesLast (sm : SubscriptionManager) : SubscriptionOp → Prop
  | .request s r => r.isAdd = false → ∀ subscribers ∈ sm.subscriptions[r.topic]?,
      subscribers[s]? = none ∨ (subscribers[s]? = some 1 ∧ (subscribers.erase s).isEmpty)
  | .closed _ => True

theorem removesLast_iff {sm : SubscriptionManager} {s : Ptr} {t : Bytes} :
    sm.RemovesLast (.request s ⟨t, false⟩) ↔
      Table.cell sm.subscriptions t s = none ∨
      (Table.cell sm.subscriptions t s = some 1 ∧
        ∀ s', s ≠ s' → Table.cell sm.subscriptions t s' = none) := by
  cases hrow : sm.subscriptions[t]? with
  | none => simp [RemovesLast, hrow, Table.cell_of_no_row hrow]
  | some subscribers =>
      simp only [Table.cell_of_row hrow, ← OrdMap.isEmpty_erase_iff]
      exact ⟨fun h => h rfl subscribers hrow, fun h _ subs hsubs => by
        rw [hrow] at hsubs
        cases hsubs
        exact h⟩

instance decidableRemovesLast (sm : SubscriptionManager) :
    ∀ op, Decidable (sm.RemovesLast op)
  | .request s r => inferInstanceAs (Decidable (r.isAdd = false →
      ∀ subscribers ∈ sm.subscriptions[r.topic]?,
        subscribers[s]? = none ∨ (subscribers[s]? = some 1 ∧ (subscribers.erase s).isEmpty)))
  | .closed _ => isTrue trivial

/-! ## The relation carried along a run -/

/-- The cell of a subscriber with a given balance. -/
def countOf (n : Nat) : Option Int := if n = 0 then none else some n

/-- The counts are right and the reverse table lists exactly the topics held. -/
structure Accounts (sm : SubscriptionManager) (balance : Ptr → Bytes → Nat) : Prop where
  cells : ∀ s t, Table.cell sm.subscriptions t s = countOf (balance s t)
  topics : ∀ s t, Index.Has sm.subscriberTopics s t ↔ 0 < balance s t

theorem counts_iff_cells {sm : SubscriptionManager} {balance : Ptr → Bytes → Nat} :
    sm.Counts balance ↔ ∀ s t, Table.cell sm.subscriptions t s = countOf (balance s t) := by
  unfold Counts
  simp only [mem_findSubscribers, storedCount]
  constructor
  · intro h s t
    obtain ⟨hmem, hcount⟩ := h s t
    cases hc : Table.cell sm.subscriptions t s with
    | none =>
        have hzero : balance s t = 0 := by simpa [hc] using hmem
        simp [countOf, hzero]
    | some c =>
        have hpos : 0 < balance s t := hmem.mp (by simp [hc])
        have hval : c = balance s t := by simpa [hc] using hcount
        rw [countOf, if_neg (by omega), hval]
  · intro h s t
    rw [h s t, countOf]
    split
    · next hzero => simp [hzero]
    · next hpos => simp; omega

theorem Accounts.counts {sm : SubscriptionManager} {balance : Ptr → Bytes → Nat}
    (h : Accounts sm balance) : sm.Counts balance :=
  counts_iff_cells.mpr h.cells

/-- A subscriber outside the table has no balance. -/
theorem Accounts.balance_of_none {sm : SubscriptionManager} {balance : Ptr → Bytes → Nat}
    (h : Accounts sm balance) {s : Ptr} {t : Bytes}
    (hc : Table.cell sm.subscriptions t s = none) : balance s t = 0 := by
  simpa [hc, countOf] using h.cells s t

/-- A subscriber in the table has the balance its cell says. -/
theorem Accounts.balance_of_some {sm : SubscriptionManager} {balance : Ptr → Bytes → Nat}
    (h : Accounts sm balance) {s : Ptr} {t : Bytes} {c : Int}
    (hc : Table.cell sm.subscriptions t s = some c) : 0 < balance s t ∧ c = balance s t := by
  have hcell := h.cells s t
  rw [hc, countOf] at hcell
  split at hcell
  · cases hcell
  · exact ⟨by omega, Option.some.inj hcell⟩

theorem accounts_empty : Accounts empty fun _ _ => 0 where
  cells s t := by simp [empty, countOf]
  topics s t := by simp [empty]

/-! ## One step -/

/-- An add moves the tables as it moves the account. -/
theorem Accounts.add {sm : SubscriptionManager} {balance : Ptr → Bytes → Nat}
    (h : Accounts sm balance) {s : Ptr} {t : Bytes} (hlt : balance s t + 1 < 2 ^ 31) :
    Accounts (sm.addSubscription s t).1 (Ledger.apply balance (.acquire s t)) where
  cells s' t' := by
    rw [cell_addSubscription, Ledger.apply_acquire]
    by_cases hst : s = s' ∧ t = t'
    · obtain ⟨rfl, rfl⟩ := hst
      rw [if_pos ⟨rfl, rfl⟩, if_pos ⟨rfl, rfl⟩, countOf, if_neg (Nat.succ_ne_zero _)]
      cases hc : Table.cell sm.subscriptions t s with
      | none => simp [h.balance_of_none hc]
      | some c =>
          have hval : c = balance s t := (h.balance_of_some hc).2
          have hint : int (c + 1) = c + 1 := int_of_bounds (by omega) (by omega)
          show some (int (c + 1)) = _
          rw [hint, hval]
          rfl
    · rw [if_neg hst, if_neg (fun hts => hst ⟨hts.2, hts.1⟩), h.cells s' t']
  topics s' t' := by
    rw [subscriberTopics_addSubscription, Index.has_add, h.topics, Ledger.apply_acquire]
    split
    · next hst => simp [hst]
    · next hst => simp [hst]

/-- A remove in one of the two good cases moves the tables as it moves the account. -/
theorem Accounts.remove {sm : SubscriptionManager} {balance : Ptr → Bytes → Nat}
    (h : Accounts sm balance) {s : Ptr} {t : Bytes}
    (hlast : sm.RemovesLast (.request s ⟨t, false⟩)) :
    Accounts (sm.removeSubscription s t).1 (Ledger.apply balance (.release s t)) := by
  rcases removesLast_iff.mp hlast with hnone | ⟨hone, honly⟩
  · rw [Ledger.apply_release_of_zero (h.balance_of_none hnone)]
    rwa [removeSubscription_of_none hnone]
  · rw [removeSubscription_of_last hone honly]
    have hbal : balance s t = 1 := by
      have hval := (h.balance_of_some hone).2
      omega
    constructor
    · intro s' t'
      rw [Table.cell_erase, Ledger.apply_release]
      by_cases ht : t = t'
      · subst ht
        by_cases hs : s = s'
        · subst hs
          simp [hbal, countOf]
        · have hzero : balance s' t = 0 := h.balance_of_none (honly s' hs)
          simp [hs, hzero, countOf]
      · simp [ht, h.cells s' t']
    · intro s' t'
      rw [Index.has_remove, h.topics, Ledger.apply_release]
      split
      · next hst =>
        obtain ⟨rfl, rfl⟩ := hst
        simp [hbal]
      · next hst => simp [hst]

/-- A disconnect always moves the tables as it moves the account. -/
theorem Accounts.close {sm : SubscriptionManager} {balance : Ptr → Bytes → Nat}
    (h : Accounts sm balance) (s : Ptr) :
    Accounts (sm.removeInteractor s).1 (Ledger.apply balance (.dropAll s)) where
  cells s' t := by
    rw [(closed_removeInteractor sm _).cells, Ledger.apply_dropAll]
    by_cases hs : s = s'
    · subst hs
      rcases Nat.eq_zero_or_pos (balance s t) with hzero | hpos
      · simp [h.topics, hzero, h.cells s t, countOf]
      · simp [h.topics, hpos, countOf]
    · simp [hs, h.cells s' t]
  topics s' t := by
    rw [(closed_removeInteractor sm _).has, h.topics, Ledger.apply_dropAll]
    by_cases hs : s = s' <;> simp [hs]

/-- A remove in any other case leaves the tables behind the account. -/
theorem Accounts.removesLast_of_counts {sm : SubscriptionManager} {balance : Ptr → Bytes → Nat}
    (h : Accounts sm balance) {s : Ptr} {t : Bytes} (hlt : balance s t < 2 ^ 31)
    (hafter : (sm.removeSubscription s t).1.Counts (Ledger.apply balance (.release s t))) :
    sm.RemovesLast (.request s ⟨t, false⟩) := by
  have hcell := counts_iff_cells.mp hafter s t
  rw [Ledger.apply_release, if_pos ⟨rfl, rfl⟩] at hcell
  rw [removesLast_iff]
  -- Where the stored count `c` stays, it would have to be `c - 1`.
  have hstays : ∀ c, Table.cell sm.subscriptions t s = some c →
      Table.cell sm.subscriptions t s ≠ countOf (balance s t - 1) := by
    intro c hc heq
    obtain ⟨hpos, hval⟩ := h.balance_of_some hc
    rw [hc, countOf] at heq
    split at heq
    · cases heq
    · have := Option.some.inj heq
      omega
  rcases removeSubscription_cases sm s t with ⟨hnone, -⟩ | ⟨c, hc, -, hrem⟩ |
    ⟨c, hc, hpos, honly, -⟩ | ⟨c, hc, -, -, hrem⟩
  · exact .inl hnone
  · rw [hrem] at hcell
    exact absurd hcell (hstays c hc)
  · obtain ⟨hbal, hval⟩ := h.balance_of_some hc
    have hint : int (c - 1) = c - 1 := int_of_bounds (by omega) (by omega)
    have hone : c = 1 := by omega
    exact .inr ⟨by rw [hc, hone], honly⟩
  · rw [hrem] at hcell
    exact absurd hcell (hstays c hc)

/-! ## Runs -/

theorem Accounts.step {sm : SubscriptionManager} {balance : Ptr → Bytes → Nat}
    (h : Accounts sm balance) {op : SubscriptionOp}
    (hlt : ∀ s t, Ledger.apply balance op.entry s t < 2 ^ 31) (hok : sm.RemovesLast op) :
    Accounts (sm.step op) (Ledger.apply balance op.entry) := by
  rcases op with ⟨s, t, _ | _⟩ | s
  · exact h.remove hok
  · refine h.add ?_
    simpa [SubscriptionOp.entry, Ledger.apply_acquire] using hlt s t
  · exact h.close s

theorem Accounts.removesLast {sm : SubscriptionManager} {balance : Ptr → Bytes → Nat}
    (h : Accounts sm balance) {op : SubscriptionOp} (hlt : ∀ s t, balance s t < 2 ^ 31)
    (hafter : (sm.step op).Counts (Ledger.apply balance op.entry)) : sm.RemovesLast op := by
  rcases op with ⟨s, t, _ | _⟩ | s
  · exact h.removesLast_of_counts (hlt s t) hafter
  · intro hadd
    cases hadd
  · trivial

/-- The account after a list of operations. -/
def balance (ops : List SubscriptionOp) : Ptr → Bytes → Nat :=
  Ledger.balance (ops.map SubscriptionOp.entry)

/-- How many requests of a list are adds. -/
def adds (ops : List SubscriptionOp) : Nat := Ledger.acquires (ops.map SubscriptionOp.entry)

theorem balance_lt {pre ops : List SubscriptionOp} {n : Nat} (hn : adds ops < n)
    (h : pre <+: ops) (s : Ptr) (t : Bytes) : balance pre s t < n :=
  Ledger.balance_lt hn (h.map _) s t

/-- **When subscriptions are reference counted.** After every step of a run the subscribers found
and the stored counts are those of the account, exactly when every remove of the run takes the
last reference of the only subscriber, or comes from a client that is not in the table. -/
theorem counts_iff_removesLast (ops : List SubscriptionOp) (hadds : adds ops < 2 ^ 31) :
    (∀ pre, pre <+: ops → (run pre).Counts (balance pre)) ↔
      Run.Meets step RemovesLast empty ops := by
  have hfold : ∀ pre : List SubscriptionOp,
      balance pre = pre.foldl (fun b op => Ledger.apply b op.entry) fun _ _ => 0 := by
    intro pre
    rw [balance, Ledger.balance, List.foldl_map]
  simp only [hfold, run]
  refine Run.simulation_iff (fun b op => Ledger.apply b (SubscriptionOp.entry op)) Accounts Counts
    accounts_empty (fun _ _ h => h.counts) ?_ ?_
  · intro pre op hpre h hok
    refine h.step (fun s t => ?_) hok
    have hlt := balance_lt hadds hpre s t
    rwa [hfold, List.foldl_append] at hlt
  · intro pre op hpre h hafter
    refine h.removesLast (fun s t => ?_) hafter
    rw [← hfold]
    exact balance_lt hadds ((List.prefix_append pre [op]).trans hpre) s t

/-- A client that subscribes and unsubscribes alone is counted right throughout. -/
theorem counts_of_lone_subscriber :
    adds [.request 1 ⟨[65], true⟩, .request 1 ⟨[65], false⟩, .closed 1] < 2 ^ 31 ∧
    ∀ pre, pre <+: [.request 1 ⟨[65], true⟩, .request 1 ⟨[65], false⟩, .closed 1] →
      (run pre).Counts (balance pre) :=
  ⟨by decide, (counts_iff_removesLast _ (by decide)).mpr (by decide)⟩

/-- Two clients subscribe to a topic and one of them unsubscribes: it is still found. -/
theorem unsubscribed_client_still_counted :
    adds [.request 1 ⟨[65], true⟩, .request 2 ⟨[65], true⟩, .request 1 ⟨[65], false⟩] < 2 ^ 31 ∧
    ¬ (run [.request 1 ⟨[65], true⟩, .request 2 ⟨[65], true⟩, .request 1 ⟨[65], false⟩]).Counts
      (balance [.request 1 ⟨[65], true⟩, .request 2 ⟨[65], true⟩, .request 1 ⟨[65], false⟩]) := by
  refine ⟨by decide, fun h => ?_⟩
  have hfound : 0 < balance [.request 1 ⟨[65], true⟩, .request 2 ⟨[65], true⟩,
      .request 1 ⟨[65], false⟩] 1 [65] :=
    (h 1 [65]).1.mp (by decide)
  exact absurd hfound (by decide)

end SubscriptionManager

end SquawkBus.Server
