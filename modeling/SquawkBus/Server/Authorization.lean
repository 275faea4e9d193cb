import SquawkBus.Server.Interface

/-!
# Authorizations

`AuthorizationSpec`, `AuthorizationCache`, `AuthorizationRepository` and `AuthorizationManager`. A
query for the entitlements of a user in a role on a topic is answered by the first specification
that applies, and the answers are cached. The repository carries the consistency of its cache, so
an answer is always the one the specifications give (`entitlements_fst`).
-/

namespace SquawkBus.Server

/-! ## Roles and specifications -/

/-- `Role`: a set of flags in an `int`. -/
abbrev Role := Int32

namespace Role

def subscriber : Role := 0x01
def publisher : Role := 0x02
def notifier : Role := 0x04
def all : Role := 0x07

end Role

variable {ρ : Type} [RegexEngine ρ]

/-- Who is entitled to what on which topics. The regular expressions are those of the patterns. -/
structure AuthorizationSpec (ρ : Type) [RegexEngine ρ] where
  userPattern : Bytes
  topicPattern : Bytes
  userRegex : ρ
  topicRegex : ρ
  entitlements : Finset Int32
  roles : Role
  userRegex_eq : RegexEngine.compile userPattern = some userRegex
  topicRegex_eq : RegexEngine.compile topicPattern = some topicRegex

namespace AuthorizationSpec

/-- The constructor, which throws where a pattern is malformed. -/
def make (userPattern topicPattern : Bytes) (entitlements : Finset Int32) (roles : Role) :
    Except Exn (AuthorizationSpec ρ) :=
  match hu : RegexEngine.compile userPattern, ht : RegexEngine.compile topicPattern with
  | some userRegex, some topicRegex =>
      .ok ⟨userPattern, topicPattern, userRegex, topicRegex, entitlements, roles, hu, ht⟩
  | _, _ => .error .regexError

/-- The three tests of the loop in `AuthorizationRepository::entitlements`. -/
def applies (spec : AuthorizationSpec ρ) (user topic : Bytes) (role : Role) : Bool :=
  RegexEngine.isMatch user spec.userRegex && RegexEngine.isMatch topic spec.topicRegex &&
    role &&& spec.roles == role

end AuthorizationSpec

/-! ## The cache -/

structure AuthorizationCache where
  authorizations : OrdMap Bytes (OrdMap Bytes (OrdMap Role (Finset Int32)))

namespace AuthorizationCache

def empty : AuthorizationCache := ⟨∅⟩

/-- The entry of a user, a topic and a role. -/
def lookup (cache : AuthorizationCache) (user topic : Bytes) (role : Role) :
    Option (Finset Int32) :=
  (Table.cell cache.authorizations user topic).bind (·[role]?)

def contains (cache : AuthorizationCache) (user topic : Bytes) (role : Role) : Bool :=
  (cache.lookup user topic role).isSome

/-- `authorizations_[user][topic][role] = entitlements`, with the maps made where missing. -/
def set (cache : AuthorizationCache) (user topic : Bytes) (role : Role)
    (entitlements : Finset Int32) : AuthorizationCache :=
  let topics := (cache.authorizations[user]?).getD ∅
  let roles := (topics[topic]?).getD ∅
  ⟨cache.authorizations.insert user (topics.insert topic (roles.insert role entitlements))⟩

/-- `authorizations_[user][topic][role]`, which makes an empty entry where there is none. -/
def get (cache : AuthorizationCache) (user topic : Bytes) (role : Role) :
    Finset Int32 × AuthorizationCache :=
  match cache.lookup user topic role with
  | some entitlements => (entitlements, cache)
  | none => (∅, cache.set user topic role ∅)

@[simp] theorem lookup_empty (user topic : Bytes) (role : Role) :
    empty.lookup user topic role = none := by
  simp [lookup, empty]

theorem lookup_set (cache : AuthorizationCache) (user user' topic topic' : Bytes)
    (role role' : Role) (entitlements : Finset Int32) :
    (cache.set user topic role entitlements).lookup user' topic' role' =
      if user = user' ∧ topic = topic' ∧ role = role' then some entitlements
      else cache.lookup user' topic' role' := by
  have hcell : ∀ t, (cache.authorizations[user]?.getD ∅)[t]? =
      Table.cell cache.authorizations user t := by
    intro t
    cases hrow : cache.authorizations[user]? with
    | none => simp [Table.cell_of_no_row hrow]
    | some row => simp [Table.cell_of_row hrow]
  unfold lookup set
  rw [Table.cell_insert]
  by_cases hu : user = user'
  · subst hu
    rw [if_pos rfl, OrdMap.get_insert]
    by_cases ht : topic = topic'
    · subst ht
      rw [if_pos rfl, hcell]
      cases hc : Table.cell cache.authorizations user topic <;>
        simp [OrdMap.get_insert]
    · simp [ht, hcell]
  · simp [hu]

end AuthorizationCache

/-! ## The repository -/

/-- The entitlements of the first specification that applies; none where none does. -/
def scan (specs : List (AuthorizationSpec ρ)) (user topic : Bytes) (role : Role) :
    Finset Int32 :=
  ((specs.find? fun spec => spec.applies user topic role).map (·.entitlements)).getD ∅

/-- The specifications and a cache that only holds answers they give. -/
structure AuthorizationRepository (ρ : Type) [RegexEngine ρ] where
  specs : List (AuthorizationSpec ρ)
  cache : AuthorizationCache
  consistent : ∀ user topic role entitlements,
    cache.lookup user topic role = some entitlements → entitlements = scan specs user topic role

namespace AuthorizationRepository

/-- The constructor: nothing is cached yet. -/
def ofSpecs (specs : List (AuthorizationSpec ρ)) : AuthorizationRepository ρ :=
  ⟨specs, .empty, fun user topic role e h => by simp at h⟩

/-- The cache after the loop over the specifications. -/
def fill (repository : AuthorizationRepository ρ) (user topic : Bytes) (role : Role) :
    AuthorizationCache :=
  if repository.cache.contains user topic role then repository.cache
  else
    match repository.specs.find? fun spec => spec.applies user topic role with
    | none => repository.cache
    | some spec => repository.cache.set user topic role spec.entitlements

/-! ### The cache agrees with the list -/

theorem consistent_set {specs : List (AuthorizationSpec ρ)} {cache : AuthorizationCache}
    (h : ∀ user topic role entitlements,
      cache.lookup user topic role = some entitlements → entitlements = scan specs user topic role)
    {user topic : Bytes} {role : Role} {entitlements : Finset Int32}
    (hscan : entitlements = scan specs user topic role) :
    ∀ user' topic' role' entitlements',
      (cache.set user topic role entitlements).lookup user' topic' role' = some entitlements' →
        entitlements' = scan specs user' topic' role' := by
  intro user' topic' role' entitlements' hlookup
  rw [AuthorizationCache.lookup_set] at hlookup
  split at hlookup
  · next heq =>
    obtain ⟨rfl, rfl, rfl⟩ := heq
    rw [← Option.some.inj hlookup, hscan]
  · exact h _ _ _ _ hlookup

theorem consistent_fill (repository : AuthorizationRepository ρ) (user topic : Bytes)
    (role : Role) : ∀ user' topic' role' entitlements,
      (repository.fill user topic role).lookup user' topic' role' = some entitlements →
        entitlements = scan repository.specs user' topic' role' := by
  unfold fill
  split
  · exact repository.consistent
  · split
    · exact repository.consistent
    · next spec hspec =>
      refine consistent_set repository.consistent ?_
      rw [scan, hspec]
      rfl

/-- After the loop an entry is missing only where no specification applies. -/
theorem scan_of_lookup_fill (repository : AuthorizationRepository ρ) {user topic : Bytes}
    {role : Role} (h : (repository.fill user topic role).lookup user topic role = none) :
    scan repository.specs user topic role = ∅ := by
  unfold fill at h
  split at h
  · next hcontains =>
    rw [AuthorizationCache.contains, h] at hcontains
    cases hcontains
  · split at h
    · next hnone => rw [scan, hnone]; rfl
    · rw [AuthorizationCache.lookup_set, if_pos ⟨rfl, rfl, rfl⟩] at h
      cases h

theorem consistent_get (repository : AuthorizationRepository ρ) (user topic : Bytes)
    (role : Role) : ∀ user' topic' role' entitlements,
      ((repository.fill user topic role).get user topic role).2.lookup user' topic' role' =
          some entitlements →
        entitlements = scan repository.specs user' topic' role' := by
  unfold AuthorizationCache.get
  split
  · exact repository.consistent_fill user topic role
  · next hnone =>
    exact consistent_set (repository.consistent_fill user topic role)
      (repository.scan_of_lookup_fill hnone).symm

def entitlements (repository : AuthorizationRepository ρ) (user topic : Bytes) (role : Role) :
    Finset Int32 × AuthorizationRepository ρ :=
  let answer := (repository.fill user topic role).get user topic role
  (answer.1, ⟨repository.specs, answer.2, repository.consistent_get user topic role⟩)

/-- **The cache does not show**: an answer is the one the specifications give. -/
@[simp] theorem entitlements_fst (repository : AuthorizationRepository ρ) (user topic : Bytes)
    (role : Role) :
    (repository.entitlements user topic role).1 = scan repository.specs user topic role := by
  show ((repository.fill user topic role).get user topic role).1 = _
  unfold AuthorizationCache.get
  cases h : (repository.fill user topic role).lookup user topic role with
  | none => exact (repository.scan_of_lookup_fill h).symm
  | some answer => exact repository.consistent_fill user topic role _ _ _ _ h

@[simp] theorem specs_entitlements (repository : AuthorizationRepository ρ) (user topic : Bytes)
    (role : Role) :
    (repository.entitlements user topic role).2.specs = repository.specs := rfl

/-- `make`: the file where one is configured, else the command line, else the default. `file` is
what reading and parsing the file gives at the time. -/
def make (path : Option Bytes) (cmdLineSpecs : List (AuthorizationSpec ρ))
    (file : Bytes → Except Exn (List (AuthorizationSpec ρ))) :
    Except Exn (AuthorizationRepository ρ) :=
  match path with
  | some path => do
      let specs ← file path
      return ofSpecs specs
  | none =>
      if cmdLineSpecs.isEmpty then do
        let spec ← AuthorizationSpec.make (ascii ".*") (ascii ".*") {0} Role.all
        return ofSpecs [spec]
      else return ofSpecs cmdLineSpecs

end AuthorizationRepository

/-! ## The manager -/

structure AuthorizationManager (ρ : Type) [RegexEngine ρ] where
  path : Option Bytes
  cmdLineSpecs : List (AuthorizationSpec ρ)
  repository : AuthorizationRepository ρ

namespace AuthorizationManager

/-- The constructor: nothing is loaded yet. -/
def new (path : Option Bytes) (cmdLineSpecs : List (AuthorizationSpec ρ)) :
    AuthorizationManager ρ := ⟨path, cmdLineSpecs, .ofSpecs []⟩

def load (manager : AuthorizationManager ρ)
    (file : Bytes → Except Exn (List (AuthorizationSpec ρ))) :
    Except Exn (AuthorizationManager ρ) := do
  let repository ← AuthorizationRepository.make manager.path manager.cmdLineSpecs file
  return { manager with repository }

def entitlements (manager : AuthorizationManager ρ) (user topic : Bytes) (role : Role) :
    Finset Int32 × AuthorizationManager ρ :=
  let answer := manager.repository.entitlements user topic role
  (answer.1, { manager with repository := answer.2 })

/-- The authorizations in force: what the loaded specifications say, the cache left aside. -/
def inForce (manager : AuthorizationManager ρ) (user topic : Bytes) (role : Role) :
    Finset Int32 := scan manager.repository.specs user topic role

@[simp] theorem entitlements_fst (manager : AuthorizationManager ρ) (user topic : Bytes)
    (role : Role) : (manager.entitlements user topic role).1 = manager.inForce user topic role :=
  manager.repository.entitlements_fst user topic role

end AuthorizationManager

end SquawkBus.Server
