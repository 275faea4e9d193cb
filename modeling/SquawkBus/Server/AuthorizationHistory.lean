import SquawkBus.Server.Authorization

/-!
# The authorization cache does not show

An `AuthorizationManager` that is loaded and queried in any order answers as one that has no cache:
each query gets the entitlements of the first specification that applies, among those of the last
load that succeeded. Answers cached under earlier specifications are gone with them, a load that
throws changes nothing, and the empty entries that queries leave behind say what a scan would say.
-/

namespace SquawkBus.Server

variable {ρ : Type} [RegexEngine ρ]

/-- What is done with a manager: it is loaded, with what reading the file gives at the time, or
queried. -/
inductive AuthorizationOp (ρ : Type) [RegexEngine ρ] where
  | load (file : Bytes → Except Exn (List (AuthorizationSpec ρ)))
  | query (user topic : Bytes) (role : Role)

/-! ## The plain account -/

/-- The specifications a load finds: those of the file where one is configured, else those of the
command line, else the default. -/
def configured (path : Option Bytes) (cmdLineSpecs : List (AuthorizationSpec ρ))
    (file : Bytes → Except Exn (List (AuthorizationSpec ρ))) :
    Except Exn (List (AuthorizationSpec ρ)) :=
  match path, cmdLineSpecs with
  | some path, _ => file path
  | none, [] => (AuthorizationSpec.make (ascii ".*") (ascii ".*") {0} Role.all).map ([·])
  | none, specs => .ok specs

/-- What an operation makes of the specifications loaded so far. -/
def reload (path : Option Bytes) (cmdLineSpecs specs : List (AuthorizationSpec ρ)) :
    AuthorizationOp ρ → List (AuthorizationSpec ρ)
  | .load file => (configured path cmdLineSpecs file).toOption.getD specs
  | .query _ _ _ => specs

/-- **The specifications of the last load that succeeded**; none before the first. -/
def latest (path : Option Bytes) (cmdLineSpecs : List (AuthorizationSpec ρ))
    (ops : List (AuthorizationOp ρ)) : List (AuthorizationSpec ρ) :=
  ops.foldl (reload path cmdLineSpecs) []

/-- The first specification that applies grants its entitlements; where none does, nothing is
granted. -/
inductive Grants (user topic : Bytes) (role : Role) :
    List (AuthorizationSpec ρ) → Finset Int32 → Prop
  | none : Grants user topic role [] ∅
  | first (spec : AuthorizationSpec ρ) (specs : List (AuthorizationSpec ρ))
      (huser : RegexEngine.isMatch user spec.userRegex)
      (htopic : RegexEngine.isMatch topic spec.topicRegex) (hroles : role &&& spec.roles = role) :
      Grants user topic role (spec :: specs) spec.entitlements
  | later (spec : AuthorizationSpec ρ) (specs : List (AuthorizationSpec ρ))
      (entitlements : Finset Int32)
      (hspec : ¬ (RegexEngine.isMatch user spec.userRegex ∧
        RegexEngine.isMatch topic spec.topicRegex ∧ role &&& spec.roles = role))
      (hspecs : Grants user topic role specs entitlements) :
      Grants user topic role (spec :: specs) entitlements

theorem applies_iff {spec : AuthorizationSpec ρ} {user topic : Bytes} {role : Role} :
    spec.applies user topic role ↔ RegexEngine.isMatch user spec.userRegex ∧
      RegexEngine.isMatch topic spec.topicRegex ∧ role &&& spec.roles = role := by
  simp [AuthorizationSpec.applies, and_assoc]

/-- A scan finds what is granted. -/
theorem grants_scan (specs : List (AuthorizationSpec ρ)) (user topic : Bytes) (role : Role) :
    Grants user topic role specs (scan specs user topic role) := by
  induction specs with
  | nil => exact .none
  | cons spec specs ih =>
      unfold scan at ih ⊢
      rw [List.find?_cons]
      cases happlies : spec.applies user topic role with
      | true =>
          obtain ⟨huser, htopic, hroles⟩ := applies_iff.mp happlies
          exact .first spec specs huser htopic hroles
      | false =>
          refine .later spec specs _ (fun h => ?_) ih
          rw [applies_iff.mpr h] at happlies
          cases happlies

/-! ## The manager -/

namespace AuthorizationManager

/-- The manager after an operation. -/
def step (manager : AuthorizationManager ρ) : AuthorizationOp ρ → AuthorizationManager ρ
  | .load file =>
      match manager.load file with
      | .ok manager => manager
      | .error _ => manager
  | .query user topic role => (manager.entitlements user topic role).2

/-- The manager is configured as `path` and `cmdLineSpecs` say, and goes by `specs`. -/
structure GoesBy (path : Option Bytes) (cmdLineSpecs : List (AuthorizationSpec ρ))
    (manager : AuthorizationManager ρ) (specs : List (AuthorizationSpec ρ)) : Prop where
  path : manager.path = path
  cmdLineSpecs : manager.cmdLineSpecs = cmdLineSpecs
  specs : manager.repository.specs = specs

/-- A repository is made of what is configured. -/
theorem specs_make (path : Option Bytes) (cmdLineSpecs : List (AuthorizationSpec ρ))
    (file : Bytes → Except Exn (List (AuthorizationSpec ρ))) :
    (AuthorizationRepository.make path cmdLineSpecs file).map (·.specs) =
      configured path cmdLineSpecs file := by
  unfold AuthorizationRepository.make configured
  cases path with
  | some path =>
      simp only
      cases file path <;> rfl
  | none =>
      cases cmdLineSpecs with
      | nil =>
          simp only [List.isEmpty_nil, if_true]
          cases (AuthorizationSpec.make (ascii ".*") (ascii ".*") {0} Role.all :
            Except Exn (AuthorizationSpec ρ)) <;> rfl
      | cons spec specs => rfl

theorem GoesBy.step {path : Option Bytes} {cmdLineSpecs specs : List (AuthorizationSpec ρ)}
    {manager : AuthorizationManager ρ} (h : GoesBy path cmdLineSpecs manager specs)
    (op : AuthorizationOp ρ) :
    GoesBy path cmdLineSpecs (manager.step op) (reload path cmdLineSpecs specs op) := by
  cases op with
  | query user topic role => exact ⟨h.path, h.cmdLineSpecs, h.specs⟩
  | load file =>
      have hmake := specs_make manager.path manager.cmdLineSpecs file
      rw [h.path, h.cmdLineSpecs] at hmake
      unfold AuthorizationManager.step AuthorizationManager.load reload
      simp only
      rw [h.path, h.cmdLineSpecs, ← hmake]
      cases AuthorizationRepository.make path cmdLineSpecs file with
      | error e => exact h
      | ok repository => exact ⟨rfl, rfl, rfl⟩

/-- **The cache cannot be observed**, whatever was loaded and asked before: a query is answered as
by a scan of the specifications of the last load that succeeded. -/
theorem answer_eq_scan (path : Option Bytes) (cmdLineSpecs : List (AuthorizationSpec ρ))
    (ops : List (AuthorizationOp ρ)) (user topic : Bytes) (role : Role) :
    let answer := ((ops.foldl step (new path cmdLineSpecs)).entitlements user topic role).1
    answer = scan (latest path cmdLineSpecs ops) user topic role ∧
      Grants user topic role (latest path cmdLineSpecs ops) answer := by
  intro answer
  have hgoes : GoesBy path cmdLineSpecs (ops.foldl step (new path cmdLineSpecs))
      (latest path cmdLineSpecs ops) := by
    refine List.foldl_rel ⟨rfl, rfl, rfl⟩ fun op _ manager specs h => ?_
    exact h.step op
  have hscan : answer = scan (latest path cmdLineSpecs ops) user topic role := by
    rw [← hgoes.specs]
    exact entitlements_fst _ user topic role
  exact ⟨hscan, hscan ▸ grants_scan _ user topic role⟩

end AuthorizationManager

end SquawkBus.Server
