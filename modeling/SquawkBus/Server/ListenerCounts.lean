import SquawkBus.Library.Run
import SquawkBus.Library.Ledger
import SquawkBus.Server.NotificationManager

/-!
# Listeners against the account of the requests

The listeners a `NotificationManager` finds compared, along a run of requests and disconnects, with
the balance that the requests alone prescribe. The manager never changes a row it has once
entered, it only erases it whole. So it agrees with the account while every pattern has one
listener at a time, who removes it when it holds it once.
-/

namespace SquawkBus.Server

open SquawkBus.Messages

/-! ## Requests -/

/-- What a client can do to its listening, with the subscriptions there are at the time. -/
inductive ListenOp where
  | request (listener : Ptr) (request : NotificationRequest) (subscriptions : SubscriptionManager)
  | closed (listener : Ptr)

namespace ListenOp

/-- The entry an operation makes in the account of listeners and patterns. -/
def entry : ListenOp → Ledger.Op Ptr Bytes
  | .request l r _ => if r.isAdd then .acquire l r.topicPattern else .release l r.topicPattern
  | .closed l => .dropAll l

/-- The pattern of the request is well formed. -/
def WellFormed (ρ : Type) [RegexEngine ρ] : ListenOp → Prop
  | .request _ r _ => (RegexEngine.compile r.topicPattern : Option ρ).isSome
  | .closed _ => True

instance decidableWellFormed (ρ : Type) [RegexEngine ρ] : ∀ op, Decidable (WellFormed ρ op)
  | .request _ r _ =>
      inferInstanceAs (Decidable ((RegexEngine.compile r.topicPattern : Option ρ).isSome = true))
  | .closed _ => isTrue trivial

/-- The pattern has no other listener when it is added, and is held at most once when it is
removed. -/
def Exclusive (balance : Ptr → Bytes → Nat) : ListenOp → Prop
  | .request l r _ =>
      if r.isAdd then ∀ l', l' ≠ l → balance l' r.topicPattern = 0
      else balance l r.topicPattern ≤ 1
  | .closed _ => True

/-- The account after a list of operations. -/
def balance (ops : List ListenOp) : Ptr → Bytes → Nat := Ledger.balance (ops.map entry)

/-- How many requests of a list are adds. -/
def adds (ops : List ListenOp) : Nat := Ledger.acquires (ops.map entry)

@[simp] theorem balance_snoc (ops : List ListenOp) (op : ListenOp) :
    balance (ops ++ [op]) = Ledger.apply (balance ops) op.entry := by
  simp [balance]

end ListenOp

namespace NotificationManager

variable {ρ : Type} [RegexEngine ρ]

def step (identify : Ptr → Identity) (nm : NotificationManager ρ) :
    ListenOp → NotificationManager ρ
  | .request l r sm => (nm.onListen identify l r sm).state
  | .closed l => nm.onInteractorClosed l

/-- The manager after a run of operations, from empty tables. -/
def run (ρ : Type) [RegexEngine ρ] (identify : Ptr → Identity) (ops : List ListenOp) :
    NotificationManager ρ :=
  ops.foldl (step identify) empty

/-! ## The statement -/

/-- **Every registered listener is found**: a listener is found for a topic when it holds a
pattern that matches the topic. -/
def FindsRegistered (nm : NotificationManager ρ) (balance : Ptr → Bytes → Nat) : Prop :=
  ∀ l t, l ∈ nm.findListeners t ↔ ∃ p, 0 < balance l p ∧ Matches ρ p t

/-- A listener has an entry for a pattern exactly when it holds it. -/
def Registers (nm : NotificationManager ρ) (balance : Ptr → Bytes → Nat) : Prop :=
  ∀ l p, (Table.cell nm.notifications p l).isSome ↔ 0 < balance l p

/-! ## The relation carried along a run -/

/-- The cache holds the compiled pattern of every row, and nothing else. -/
def Cached (notifications : OrdMap Bytes (OrdMap Ptr Int)) (regexCache : OrdMap Bytes ρ) : Prop :=
  ∀ p, if p ∈ notifications then
    (RegexEngine.compile p : Option ρ).isSome ∧ regexCache[p]? = RegexEngine.compile p
  else regexCache[p]? = none

/-- Every pattern held is entered everywhere, with the count one, for its only listener. -/
structure Registered (nm : NotificationManager ρ) (balance : Ptr → Bytes → Nat) : Prop where
  cells : ∀ l p, Table.cell nm.notifications p l = if balance l p = 0 then none else some 1
  exclusive : ∀ p l l', 0 < balance l p → 0 < balance l' p → l = l'
  rows : Table.NoEmptyRow nm.notifications
  cached : Cached nm.notifications nm.regexCache
  patterns : ∀ l p, Index.Has nm.listenerTopicPatterns l p ↔ 0 < balance l p

variable {nm : NotificationManager ρ} {balance : Ptr → Bytes → Nat}

theorem registered_empty : Registered (empty : NotificationManager ρ) fun _ _ => 0 where
  cells l p := by simp [empty]
  exclusive p l l' h := by omega
  rows := Table.noEmptyRow_empty
  cached p := by simp [empty]
  patterns l p := by simp [empty]

theorem Registered.isSome_iff (h : Registered nm balance) {l : Ptr} {p : Bytes} :
    (Table.cell nm.notifications p l).isSome ↔ 0 < balance l p := by
  rw [h.cells]
  split
  · next hzero => simp [hzero]
  · next hne => simp; omega

theorem Registered.balance_of_no_row (h : Registered nm balance) {p : Bytes}
    (hrow : nm.notifications[p]? = none) (l : Ptr) : balance l p = 0 := by
  have hnone := Table.cell_of_no_row hrow l
  by_contra hne
  have hsome := h.isSome_iff.mpr (Nat.pos_of_ne_zero hne)
  simp [hnone] at hsome

/-- Under the relation the listeners found are the listeners registered. -/
theorem Registered.findsRegistered (h : Registered nm balance) : nm.FindsRegistered balance := by
  intro l t
  rw [mem_findListeners]
  constructor
  · rintro ⟨p, regex, hcache, hmatch, hcell⟩
    refine ⟨p, h.isSome_iff.mp hcell, regex, ?_, hmatch⟩
    have hcached := h.cached p
    split at hcached
    · rw [← hcached.2, hcache]
    · rw [hcache] at hcached
      cases hcached
  · rintro ⟨p, hpos, regex, hcompile, hmatch⟩
    have hcell := h.isSome_iff.mpr hpos
    have hmem : p ∈ nm.notifications := h.rows.mem_iff.mpr ⟨l, hcell⟩
    have hcached := h.cached p
    rw [if_pos hmem] at hcached
    exact ⟨p, regex, by rw [hcached.2, hcompile], hmatch, hcell⟩

/-! ## One step -/

theorem cached_iff {ns : OrdMap Bytes (OrdMap Ptr Int)} {rc : OrdMap Bytes ρ} :
    Cached ns rc ↔ Compiled ns rc ∧ ∀ p ∈ ns, (RegexEngine.compile p : Option ρ).isSome := by
  unfold Cached Compiled
  rw [← forall_and]
  refine forall_congr' fun p => ?_
  by_cases hp : p ∈ ns <;> simp [hp, and_comm]

/-- Patterns still have one listener each when the only holder acquires one, or the first does. -/
theorem Registered.exclusive_acquire (h : Registered nm balance) {l : Ptr} {p : Bytes}
    (hexcl : ∀ l', l' ≠ l → balance l' p = 0) (q : Bytes) (m m' : Ptr)
    (hm : 0 < Ledger.apply balance (.acquire l p) m q)
    (hm' : 0 < Ledger.apply balance (.acquire l p) m' q) : m = m' := by
  rw [Ledger.apply_acquire] at hm hm'
  by_cases hq : p = q
  · subst hq
    have hone : ∀ k, (0 < if l = k ∧ p = p then balance k p + 1 else balance k p) → k = l := by
      intro k hk
      by_contra hne
      rw [if_neg (fun hlk => hne hlk.1.symm), hexcl k hne] at hk
      omega
    rw [hone m hm, hone m' hm']
  · simp only [hq, and_false, if_false] at hm hm'
    exact h.exclusive q m m' hm hm'

/-- The row of a pattern that nobody else holds is the listener's own. -/
theorem Registered.held_of_row (h : Registered nm balance) {l : Ptr} {p : Bytes}
    (hrow : p ∈ nm.notifications) (hexcl : ∀ l', l' ≠ l → balance l' p = 0) : 0 < balance l p := by
  obtain ⟨m, hm⟩ := h.rows.mem_iff.mp hrow
  have hpos := h.isSome_iff.mp hm
  by_cases hml : m = l
  · rwa [hml] at hpos
  · rw [hexcl m hml] at hpos
    omega

/-- An add by the only holder, or of a pattern nobody holds. -/
theorem Registered.add (h : Registered nm balance) (identify : Ptr → Identity) {l : Ptr}
    {p : Bytes} (sm : SubscriptionManager) (hwf : (RegexEngine.compile p : Option ρ).isSome)
    (hexcl : ∀ l', l' ≠ l → balance l' p = 0) :
    Registered (nm.addListener identify l p sm).state (Ledger.apply balance (.acquire l p)) := by
  have hexclusive := h.exclusive_acquire hexcl
  have hpatterns : ∀ m q, Index.Has (Index.add nm.listenerTopicPatterns l p) m q ↔
      0 < Ledger.apply balance (.acquire l p) m q := by
    intro m q
    rw [Index.has_add, h.patterns, Ledger.apply_acquire]
    split
    · next heq => simp [heq]
    · next hne => simp [hne]
  rcases addListener_cases identify nm l p sm with ⟨-, hnone, -⟩ | ⟨regex, hrow, hregex, -, hstate⟩ |
    ⟨⟨listeners, hrow⟩, -, hstate⟩
  · rw [hnone] at hwf
    cases hwf
  · rw [hstate]
    have hcached := cached_iff.mp h.cached
    have hcompiled := hcached.1.addListener identify l p sm
    rw [hstate] at hcompiled
    refine ⟨?_, hexclusive, h.rows.insert p ?_, cached_iff.mpr ⟨hcompiled, fun q hq => ?_⟩,
      hpatterns⟩
    · intro m q
      rw [Table.cell_insert, Ledger.apply_acquire]
      by_cases hq : p = q
      · subst hq
        rw [if_pos rfl, OrdMap.get_insert]
        by_cases hm : l = m
        · subst hm
          simp
        · simp [hm, h.balance_of_no_row hrow m]
      · simp [hq, h.cells m q]
    · intro hempty
      have hget : (Std.ExtTreeMap.insert ∅ l 1 : OrdMap Ptr Int)[l]? = none := by rw [hempty]; simp
      rw [OrdMap.get_insert, if_pos rfl] at hget
      cases hget
    · by_cases heq : p = q
      · rwa [← heq]
      · exact hcached.2 q (by simpa [heq] using hq)
  · rw [hstate]
    have hheld : 0 < balance l p := h.held_of_row (OrdMap.mem_iff_get.mpr ⟨listeners, hrow⟩) hexcl
    refine ⟨?_, hexclusive, h.rows, h.cached, hpatterns⟩
    intro m q
    rw [Ledger.apply_acquire]
    split
    · next heq =>
      obtain ⟨rfl, rfl⟩ := heq
      rw [h.cells, if_neg (by omega), if_neg (by omega)]
    · exact h.cells m q

/-- A remove by a listener that holds the pattern at most once. -/
theorem Registered.remove (h : Registered nm balance) {l : Ptr} {p : Bytes}
    (hone : balance l p ≤ 1) :
    Registered (nm.removeListener l p) (Ledger.apply balance (.release l p)) := by
  rcases removeListener_cases nm l p with ⟨hnone, hrem⟩ | ⟨c, hc, hpos, -⟩ |
    ⟨c, hc, -, honly, hrem⟩ | ⟨c, hc, -, ⟨l', hne, hsome⟩, -⟩
  · have hzero : balance l p = 0 := by
      by_contra hne
      have hsome := h.isSome_iff.mpr (Nat.pos_of_ne_zero hne)
      simp [hnone] at hsome
    rwa [hrem, Ledger.apply_release_of_zero hzero]
  · rw [h.cells] at hc
    split at hc
    · cases hc
    · cases hc
      exact absurd hpos (by decide)
  · have hheld : balance l p = 1 := by
      have := h.isSome_iff.mp (Option.isSome_of_mem hc)
      omega
    rw [hrem]
    refine ⟨?_, ?_, h.rows.erase p, ?_, ?_⟩
    · intro m q
      rw [Table.cell_erase, Ledger.apply_release]
      by_cases hq : p = q
      · subst hq
        by_cases hm : l = m
        · subst hm
          simp [hheld]
        · have hnone := honly m hm
          rw [h.cells] at hnone
          simpa [hm] using hnone
      · simp [hq, h.cells m q]
    · intro q m m' hm hm'
      rw [Ledger.apply_release] at hm hm'
      refine h.exclusive q m m' ?_ ?_
      · split at hm <;> omega
      · split at hm' <;> omega
    · obtain ⟨hcompiled, hwf⟩ := cached_iff.mp h.cached
      exact cached_iff.mpr ⟨hcompiled.erase p, fun q hq =>
        hwf q (Std.ExtTreeMap.mem_of_mem_erase hq)⟩
    · intro m q
      rw [Index.has_remove, h.patterns, Ledger.apply_release]
      split
      · next heq =>
        obtain ⟨rfl, rfl⟩ := heq
        simp [hheld]
      · next hne => simp [hne]
  · -- Two listeners would share the row.
    exact absurd (h.exclusive p l l' (h.isSome_iff.mp (Option.isSome_of_mem hc))
      (h.isSome_iff.mp hsome)) hne

/-- A disconnect always moves the tables as it moves the account. -/
theorem Registered.close (h : Registered nm balance) (l : Ptr) :
    Registered (nm.onInteractorClosed l) (Ledger.apply balance (.dropAll l)) where
  cells m q := by
    rw [(closed_onInteractorClosed nm _).cells, Ledger.apply_dropAll]
    by_cases hm : l = m
    · subst hm
      rcases Nat.eq_zero_or_pos (balance l q) with hzero | hpos
      · simp [h.patterns, hzero, h.cells l q]
      · simp [h.patterns, hpos]
    · simp [hm, h.cells m q]
  exclusive q m m' hm hm' := by
    rw [Ledger.apply_dropAll] at hm hm'
    refine h.exclusive q m m' ?_ ?_
    · split at hm <;> omega
    · split at hm' <;> omega
  rows := by
    unfold onInteractorClosed
    cases nm.listenerTopicPatterns[l]? with
    | none => exact h.rows
    | some ps =>
        simp only [foldl_closePattern_fst]
        exact h.rows.foldl_dropCell l _
  cached := by
    obtain ⟨hcompiled, hwf⟩ := cached_iff.mp h.cached
    refine cached_iff.mpr ⟨hcompiled.close l, fun p hp => ?_⟩
    -- A row left was there before.
    unfold onInteractorClosed at hp
    cases hps : nm.listenerTopicPatterns[l]? with
    | none => exact hwf p (by simpa only [hps] using hp)
    | some ps =>
        simp only [hps, foldl_closePattern_fst] at hp
        exact hwf p (Table.mem_of_mem_foldl_dropCell hp)
  patterns m q := by
    rw [(closed_onInteractorClosed nm _).has, h.patterns, Ledger.apply_dropAll]
    by_cases hm : l = m <;> simp [hm]

theorem Registered.step (h : Registered nm balance) (identify : Ptr → Identity) {op : ListenOp}
    (hwf : op.WellFormed ρ) (hexcl : op.Exclusive balance) :
    Registered (nm.step identify op) (Ledger.apply balance op.entry) := by
  rcases op with ⟨l, ⟨p, _ | _⟩, sm⟩ | l
  · exact h.remove hexcl
  · exact h.add identify sm hwf hexcl
  · exact h.close l

/-- Any other step leaves the tables behind the account. -/
theorem Registered.exclusive_of_registers (h : Registered nm balance) (identify : Ptr → Identity)
    {op : ListenOp} (hafter : (nm.step identify op).Registers (Ledger.apply balance op.entry)) :
    op.Exclusive balance := by
  rcases op with ⟨l, ⟨p, _ | _⟩, sm⟩ | l
  · show balance l p ≤ 1
    have hcell : (Table.cell (nm.removeListener l p).notifications p l).isSome ↔
        0 < Ledger.apply balance (.release l p) l p := hafter l p
    rw [Ledger.apply_release, if_pos ⟨rfl, rfl⟩] at hcell
    rcases removeListener_cases nm l p with ⟨hnone, hrem⟩ | ⟨c, hc, hpos, -⟩ |
      ⟨c, hc, -, honly, hrem⟩ | ⟨c, hc, -, ⟨l', hne, hsome⟩, -⟩
    · have hnot : ¬ 0 < balance l p := by simp [← h.isSome_iff, hnone]
      omega
    · rw [h.cells] at hc
      split at hc
      · cases hc
      · cases hc
        exact absurd hpos (by decide)
    · rw [hrem, Table.cell_erase, if_pos rfl] at hcell
      have hnot : ¬ 0 < balance l p - 1 := fun hpos => by simpa using hcell.mpr hpos
      omega
    · exact absurd (h.exclusive p l l' (h.isSome_iff.mp (Option.isSome_of_mem hc))
        (h.isSome_iff.mp hsome)) hne
  · show ∀ l', l' ≠ l → balance l' p = 0
    intro l' hne
    by_contra hheld
    have hsome' := h.isSome_iff.mpr (Nat.pos_of_ne_zero hheld)
    -- The row of `l'` is there already, so that of `l` is not entered.
    have hcell : (Table.cell (nm.addListener identify l p sm).state.notifications p l).isSome ↔
        0 < Ledger.apply balance (.acquire l p) l p := hafter l p
    have hpos : 0 < Ledger.apply balance (.acquire l p) l p := by
      rw [Ledger.apply_acquire, if_pos ⟨rfl, rfl⟩]
      omega
    rcases addListener_cases identify nm l p sm with ⟨hrow, -⟩ | ⟨-, hrow, -⟩ | ⟨-, -, hstate⟩
    · simp [Table.cell_of_no_row hrow] at hsome'
    · simp [Table.cell_of_no_row hrow] at hsome'
    · rw [hstate] at hcell
      exact hne (h.exclusive p l' l (Nat.pos_of_ne_zero hheld)
        (h.isSome_iff.mp (hcell.mpr hpos)))
  · trivial

/-! ## Runs -/

theorem balance_eq_foldl (ops : List ListenOp) :
    ListenOp.balance ops =
      ops.foldl (fun b op => Ledger.apply b op.entry) fun _ _ => 0 := by
  rw [ListenOp.balance, Ledger.balance, List.foldl_map]

/-- **When the tables are right.** Every listener has an entry for exactly the patterns it holds,
after every step, if and only if a pattern is only ever added while no other client holds it and
only ever removed by a client that holds it at most once. -/
theorem registers_iff_exclusive (identify : Ptr → Identity) (ops : List ListenOp)
    (hwf : ∀ op ∈ ops, op.WellFormed ρ) :
    (∀ pre, pre <+: ops → (run ρ identify pre).Registers (ListenOp.balance pre)) ↔
      ∀ pre op, pre ++ [op] <+: ops → op.Exclusive (ListenOp.balance pre) := by
  simp only [balance_eq_foldl, run]
  refine Run.simulation_iff (step identify) (fun b nm => Registered nm b)
    (fun b nm => Registers nm b) registered_empty (fun _ _ h _ _ => h.isSome_iff) ?_ ?_
  · intro pre op hpre h hok
    exact h.step identify (hwf op (hpre.subset (by simp))) hok
  · intro pre op hpre h hafter
    exact h.exclusive_of_registers identify hafter

/-- **When every registered listener is found.** Along a run in which a pattern is only ever added
by a client while no other client holds it, and only ever removed by a client that holds it at
most once, the listeners found for a topic are those that hold a pattern matching it. -/
theorem findsRegistered_of_exclusive (identify : Ptr → Identity) (ops : List ListenOp)
    (hwf : ∀ op ∈ ops, op.WellFormed ρ)
    (hexcl : ∀ pre op, pre ++ [op] <+: ops → op.Exclusive (ListenOp.balance pre)) :
    ∀ pre, pre <+: ops → (run ρ identify pre).FindsRegistered (ListenOp.balance pre) := by
  intro pre hpre
  refine Registered.findsRegistered (Run.prefix_induction ops
    (motive := fun pre => Registered (run ρ identify pre) (ListenOp.balance pre))
    registered_empty ?_ pre hpre)
  intro pre op hsnoc ih
  have hmem : op ∈ ops := hsnoc.subset (by simp)
  rw [run, List.foldl_append, ListenOp.balance_snoc]
  exact ih.step identify (hwf op hmem) (hexcl pre op hsnoc)

/-- A client that adds a pattern and removes it again. -/
theorem findsRegistered_of_add_remove :
    ListenOp.WellFormed PlainRegex (.request 1 ⟨ascii "A", true⟩ .empty) ∧
    ∀ pre, pre <+: [.request 1 ⟨ascii "A", true⟩ .empty, .request 1 ⟨ascii "A", false⟩ .empty] →
      (run PlainRegex (fun _ => ⟨[], [], []⟩) pre).FindsRegistered (ListenOp.balance pre) := by
  refine ⟨by decide, findsRegistered_of_exclusive _ _ (by decide) ?_⟩
  intro pre op h
  match pre, h with
  | [], ⟨rest, hrest⟩ =>
      obtain rfl := (List.cons.inj hrest).1
      intro l' _
      rfl
  | [op'], ⟨rest, hrest⟩ =>
      obtain ⟨rfl, htail⟩ := List.cons.inj hrest
      obtain rfl := (List.cons.inj htail).1
      show ListenOp.balance _ 1 (ascii "A") ≤ 1
      decide
  | _ :: _ :: _, ⟨rest, hrest⟩ =>
      have hlen := congrArg List.length hrest
      simp at hlen

/-- Two clients add the same pattern: the second is not found. -/
theorem second_listener_not_found :
    (∀ op ∈ [ListenOp.request 1 ⟨ascii "A", true⟩ .empty, .request 2 ⟨ascii "A", true⟩ .empty],
      op.WellFormed PlainRegex) ∧
    ListenOp.adds [.request 1 ⟨ascii "A", true⟩ .empty, .request 2 ⟨ascii "A", true⟩ .empty] <
      2 ^ 31 ∧
    ¬ (run PlainRegex (fun _ => ⟨[], [], []⟩)
        [.request 1 ⟨ascii "A", true⟩ .empty, .request 2 ⟨ascii "A", true⟩ .empty]).FindsRegistered
      (ListenOp.balance
        [.request 1 ⟨ascii "A", true⟩ .empty, .request 2 ⟨ascii "A", true⟩ .empty]) := by
  refine ⟨by decide, by decide, fun h => ?_⟩
  have hfound := (h 2 (ascii "A")).mpr ⟨ascii "A", by decide, .literal (ascii "A"), by decide,
    by decide⟩
  exact absurd hfound (by decide)

end NotificationManager

end SquawkBus.Server
