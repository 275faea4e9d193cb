import SquawkBus.Server.ListenerCounts

/-!
# A request to listen that fails

`add_listener` enters the row of a new pattern before it constructs the regular expression. When the
construction throws, the row stays: the request has failed and the tables have changed, and from then
on there is a pattern in `notifications_` that `regex_cache_` does not have. Nothing else can set the
two tables apart.
-/

namespace SquawkBus.Server

open SquawkBus.Messages

/-! ## The statement -/

/-- The request does not add a malformed pattern. -/
def ListenOp.AddsWellFormed (ρ : Type) [RegexEngine ρ] : ListenOp → Prop
  | .request _ r _ => r.isAdd = true → (RegexEngine.compile r.topicPattern : Option ρ).isSome
  | .closed _ => True

instance ListenOp.decidableAddsWellFormed (ρ : Type) [RegexEngine ρ] :
    ∀ op, Decidable (ListenOp.AddsWellFormed ρ op)
  | .request _ r _ => inferInstanceAs
      (Decidable (r.isAdd = true → (RegexEngine.compile r.topicPattern : Option ρ).isSome = true))
  | .closed _ => isTrue trivial

namespace NotificationManager

variable {ρ : Type} [RegexEngine ρ]

/-- The rows and the regular expressions are those of the same patterns. -/
def SamePatterns (nm : NotificationManager ρ) : Prop :=
  ∀ p, p ∈ nm.notifications ↔ p ∈ nm.regexCache

/-- **A failed request to listen changes nothing**, at any step of the run, and so the tables are
about the same patterns in every state. -/
structure FailsCleanly (ρ : Type) [RegexEngine ρ] (identify : Ptr → Identity)
    (ops : List ListenOp) : Prop where
  unchanged : ∀ pre l request sm, pre ++ [.request l request sm] <+: ops →
    ((run ρ identify pre).onListen identify l request sm).fault ≠ none →
      ((run ρ identify pre).onListen identify l request sm).state = run ρ identify pre
  samePatterns : ∀ pre, pre <+: ops → (run ρ identify pre).SamePatterns

/-! ## What a step does to the rows -/

theorem compiled_run (identify : Ptr → Identity) (ops : List ListenOp) :
    Compiled (run ρ identify ops).notifications (run ρ identify ops).regexCache := by
  induction ops using List.reverseRecOn with
  | nil => exact compiled_empty
  | append_singleton ops op ih =>
      rw [run, List.foldl_append]
      cases op with
      | request l request sm => exact ih.onListen identify l request sm
      | closed l => exact ih.close l

/-- A row that is there after a step was there before, or is what the step adds. -/
theorem mem_notifications_step {identify : Ptr → Identity} {nm : NotificationManager ρ}
    {op : ListenOp} {p : Bytes} (h : p ∈ (nm.step identify op).notifications) :
    p ∈ nm.notifications ∨ ∃ l sm, op = .request l ⟨p, true⟩ sm := by
  cases op with
  | closed l =>
      refine .inl ?_
      change p ∈ (nm.onInteractorClosed l).notifications at h
      unfold onInteractorClosed at h
      split at h
      · exact h
      · simp only [foldl_closePattern_fst] at h
        exact Table.mem_of_mem_foldl_dropCell h
  | request l request sm =>
      obtain ⟨q, isAdd⟩ := request
      cases isAdd with
      | false =>
          refine .inl ?_
          change p ∈ (nm.removeListener l q).notifications at h
          rcases removeListener_cases nm l q with ⟨-, hrem⟩ | ⟨c, -, -, hrem⟩ |
            ⟨c, -, -, -, hrem⟩ | ⟨c, -, -, -, hrem⟩ <;> rw [hrem] at h
          · exact h
          · exact h
          · exact Std.ExtTreeMap.mem_of_mem_erase h
          · exact h
      | true =>
          change p ∈ (addListener identify nm l q sm).state.notifications at h
          have hinsert : p ∈ nm.notifications.insert q (Std.ExtTreeMap.insert ∅ l 1) →
              p ∈ nm.notifications ∨ ∃ l' sm', ListenOp.request l ⟨q, true⟩ sm =
                .request l' ⟨p, true⟩ sm' := by
            intro hmem
            rw [Std.ExtTreeMap.mem_insert, Std.compare_eq_iff_eq] at hmem
            rcases hmem with rfl | hmem
            · exact .inr ⟨l, sm, rfl⟩
            · exact .inl hmem
          rcases addListener_cases identify nm l q sm with ⟨-, -, hadd⟩ | ⟨_, -, -, -, hstate⟩ |
            ⟨-, -, hstate⟩
          · rw [hadd] at h
            exact hinsert h
          · rw [hstate] at h
            exact hinsert h
          · rw [hstate] at h
            exact .inl h

/-- **When a request fails**: it adds a malformed pattern that has no row yet, and leaves one. -/
theorem fault_onListen_iff {identify : Ptr → Identity} {nm : NotificationManager ρ} {l : Ptr}
    {request : NotificationRequest} {sm : SubscriptionManager} :
    (nm.onListen identify l request sm).fault ≠ none ↔ request.isAdd = true ∧
      request.topicPattern ∉ nm.notifications ∧
        (RegexEngine.compile request.topicPattern : Option ρ) = none := by
  unfold onListen
  cases request.isAdd with
  | false => simp
  | true =>
      simp only [if_true, true_and]
      rcases addListener_cases identify nm l request.topicPattern sm with ⟨hrow, hnone, hadd⟩ |
        ⟨regex, -, hregex, hfault, -⟩ | ⟨⟨listeners, hrow⟩, hfault, -⟩
      · have hnew : request.topicPattern ∉ nm.notifications := by simpa using hrow
        simp [hadd, hnew, hnone]
      · simp [hfault, hregex]
      · have hknown : request.topicPattern ∈ nm.notifications :=
          OrdMap.mem_iff_get.mpr ⟨listeners, hrow⟩
        simp [hfault, hknown]

theorem mem_of_fault {identify : Ptr → Identity} {nm : NotificationManager ρ} {l : Ptr}
    {request : NotificationRequest} {sm : SubscriptionManager}
    (h : (nm.onListen identify l request sm).fault ≠ none) :
    request.topicPattern ∈ (nm.onListen identify l request sm).state.notifications := by
  obtain ⟨hadd, hnew, hmalformed⟩ := fault_onListen_iff.mp h
  unfold onListen
  rw [if_pos hadd]
  rcases addListener_cases identify nm l request.topicPattern sm with ⟨-, -, hstate⟩ |
    ⟨regex, -, hregex, -⟩ | ⟨⟨listeners, hrow⟩, -, -⟩
  · rw [hstate]
    simp
  · rw [hmalformed] at hregex
    cases hregex
  · exact absurd (OrdMap.mem_iff_get.mpr ⟨listeners, hrow⟩) hnew

/-! ## Runs -/

/-- In a run that adds well-formed patterns only, every row is that of one. -/
theorem isSome_of_mem_run {identify : Ptr → Identity} {ops : List ListenOp}
    (hops : ∀ op ∈ ops, op.AddsWellFormed ρ) {p : Bytes}
    (h : p ∈ (run ρ identify ops).notifications) :
    (RegexEngine.compile p : Option ρ).isSome := by
  induction ops using List.reverseRecOn with
  | nil => simp [run, empty] at h
  | append_singleton ops op ih =>
      rw [run, List.foldl_append] at h
      rcases mem_notifications_step h with hold | ⟨l, sm, hop⟩
      · exact ih (fun op' hop' => hops op' (List.mem_append_left _ hop')) hold
      · have hadds := hops op (by simp)
        rw [hop] at hadds
        exact hadds rfl

/-- **When failed requests change nothing**: exactly in the runs in which nobody asks to add a
malformed pattern. -/
theorem failsCleanly_iff (ρ : Type) [RegexEngine ρ] (identify : Ptr → Identity)
    (ops : List ListenOp) :
    FailsCleanly ρ identify ops ↔ ∀ op ∈ ops, op.AddsWellFormed ρ := by
  constructor
  · intro h op hop
    cases op with
    | closed l => trivial
    | request l request sm =>
        intro hadd
        by_contra hmalformed
        obtain ⟨pre, post, rfl⟩ := List.append_of_mem hop
        have hnone : (RegexEngine.compile request.topicPattern : Option ρ) = none :=
          Option.not_isSome_iff_eq_none.mp hmalformed
        have hpre : pre <+: pre ++ ListenOp.request l request sm :: post := List.prefix_append _ _
        have hsnoc : pre ++ [.request l request sm] <+: pre ++ .request l request sm :: post :=
          ⟨post, by simp⟩
        -- The pattern has no row, since it could have no regular expression.
        have hnew : request.topicPattern ∉ (run ρ identify pre).notifications := by
          intro hrow
          have hcached := (h.samePatterns pre hpre request.topicPattern).mp hrow
          obtain ⟨regex, hregex⟩ := OrdMap.mem_iff_get.mp hcached
          rw [compiled_run identify pre, if_pos hrow, hnone] at hregex
          cases hregex
        have hfault : ((run ρ identify pre).onListen identify l request sm).fault ≠ none :=
          fault_onListen_iff.mpr ⟨hadd, hnew, hnone⟩
        have hmem := mem_of_fault hfault
        rw [h.unchanged pre l request sm hsnoc hfault] at hmem
        exact hnew hmem
  · intro h
    refine ⟨fun pre l request sm hpre hfault => ?_, fun pre hpre p => ?_⟩
    · obtain ⟨hadd, -, hnone⟩ := fault_onListen_iff.mp hfault
      have hadds : ListenOp.AddsWellFormed ρ (.request l request sm) :=
        h _ (hpre.subset (by simp))
      have hsome := hadds hadd
      rw [hnone] at hsome
      cases hsome
    · have hcompiled := compiled_run (ρ := ρ) identify pre p
      by_cases hrow : p ∈ (run ρ identify pre).notifications
      · rw [if_pos hrow] at hcompiled
        have hsome := isSome_of_mem_run (fun op hop => h op (hpre.subset hop)) hrow
        rw [← hcompiled] at hsome
        exact ⟨fun _ => Std.ExtTreeMap.mem_iff_isSome_getElem?.mpr hsome, fun _ => hrow⟩
      · rw [if_neg hrow] at hcompiled
        refine ⟨fun hmem => absurd hmem hrow, fun hmem => ?_⟩
        rw [Std.ExtTreeMap.mem_iff_isSome_getElem?, hcompiled] at hmem
        cases hmem

/-- Client 1 asks to listen to a malformed pattern: the request fails and its row stays. -/
theorem failed_listen_leaves_row :
    let request : NotificationRequest := ⟨ascii "(", true⟩
    ¬ FailsCleanly PlainRegex numbered [.request 1 request .empty] ∧
      ((empty : NotificationManager PlainRegex).onListen numbered 1 request .empty).fault =
        some .regexError ∧
      ascii "(" ∈ ((empty : NotificationManager PlainRegex).onListen numbered 1 request
        .empty).state.notifications := by
  refine ⟨fun h => ?_, by decide, by decide⟩
  have hsame := (h.samePatterns _ (List.prefix_refl _) (ascii "(")).mp (by decide)
  revert hsame
  decide

end NotificationManager

end SquawkBus.Server
