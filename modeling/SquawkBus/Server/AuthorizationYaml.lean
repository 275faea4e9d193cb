import SquawkBus.Server.SpecLine

/-!
# Authorizations in a file

`AuthorizationRepository::load` decodes a YAML document into a map of maps and makes a specification of
every entry it meets on the way through them. Both are `std::map`s, so the specifications come in the
order of their keys, user pattern first and topic pattern second, wherever they stand in the document
(`load_ascending`). Lookup takes the first specification that applies: the file and a list of the same
specifications agree when the list is in that order, and may differ when it is not.

Nodes are those of `yaml-cpp`; how it turns a single value into a string or a number is a parameter.
-/

namespace SquawkBus.Server

/-! ## Nodes -/

/-- `YAML::Node`. The entries of a map are in the order of the document. -/
inductive YamlNode where
  | null
  | scalar (text : Bytes)
  | sequence (items : List YamlNode)
  | map (entries : List (YamlNode × YamlNode))

/-- A `YAML::Exception`, which is a `std::runtime_error`. -/
def badConversion : Exn := .runtimeError "bad conversion"

/-- The conversions of single values. -/
structure YamlCpp where
  /-- `as<std::string>()`. -/
  asString : YamlNode → Except Exn Bytes
  /-- `as<int>()`. -/
  asInt : YamlNode → Except Exn Int32

/-- What an entry of the document says. -/
structure Authorization where
  entitlements : List Int32
  role : Role

namespace YamlCpp

variable (yaml : YamlCpp) {ν : Type}

/-- The key and the value of one entry of a map. -/
def asPair (asValue : YamlNode → Except Exn ν) (entry : YamlNode × YamlNode) :
    Except Exn (Bytes × ν) := do
  let value ← asValue entry.2
  let key ← yaml.asString entry.1
  return (key, value)

/-- `as<std::map<std::string, V>>()`: `rhs[key] = value` for one entry after the other. -/
def asMap (asValue : YamlNode → Except Exn ν) : YamlNode → Except Exn (OrdMap Bytes ν)
  | .map entries => entries.foldlM (fun rhs entry =>
      (yaml.asPair asValue entry).map fun pair => rhs.insert pair.1 pair.2) ∅
  | _ => .error badConversion

/-- `as<std::vector<int>>()`. -/
def asVector : YamlNode → Except Exn (List Int32)
  | .sequence items => items.mapM yaml.asInt
  | _ => .error badConversion

/-- `node[key]`, of which a missing entry cannot be converted. -/
def get (entries : List (YamlNode × YamlNode)) (key : Bytes) : Except Exn YamlNode :=
  match entries.find? fun entry => (yaml.asString entry.1).toOption == some key with
  | some entry => .ok entry.2
  | none => .error badConversion

/-- One round of the loop over the names of roles. A name that is none of the three is passed over. -/
def addRole (role : Role) (name : Bytes) : Role :=
  let role :=
    if name = ascii "Subscriber" then role ||| Role.subscriber
    else if name = ascii "Publisher" then role ||| Role.publisher
    else role
  if name = ascii "Notifier" then role ||| Role.notifier else role

/-- `convert<Role>::decode`. -/
def decodeRole : YamlNode → Except Exn Role
  | .sequence elements =>
      elements.foldlM (fun role element => (yaml.asString element).map (addRole role)) 0
  | _ => .error badConversion

/-- `convert<Authorization>::decode`. -/
def decodeAuthorization : YamlNode → Except Exn Authorization
  | .map entries => do
      let entitlements ← yaml.get entries (ascii "entitlements") >>= yaml.asVector
      let role ← yaml.get entries (ascii "roles") >>= yaml.decodeRole
      return ⟨entitlements, role⟩
  | _ => .error badConversion

end YamlCpp

/-! ## Entries and specifications -/

/-- An entry of the document with the patterns it stands under. -/
structure AuthorizationEntry where
  userPattern : Bytes
  topicPattern : Bytes
  authorization : Authorization

namespace AuthorizationEntry

/-- The entries of all topic patterns of all user patterns, in the order given. -/
def ofUsers (users : List (Bytes × List (Bytes × Authorization))) : List AuthorizationEntry :=
  users.flatMap fun user => user.2.map fun topic => ⟨user.1, topic.1, topic.2⟩

/-- Ascending by user pattern and then by topic pattern. -/
def Before (e f : AuthorizationEntry) : Prop :=
  compare e.userPattern f.userPattern = .lt ∨
    (e.userPattern = f.userPattern ∧ compare e.topicPattern f.topicPattern = .lt)

variable {ρ : Type} [RegexEngine ρ]

/-- The specification of an entry. -/
def spec (entry : AuthorizationEntry) : Except Exn (AuthorizationSpec ρ) :=
  AuthorizationSpec.make entry.userPattern entry.topicPattern
    entry.authorization.entitlements.toFinset entry.authorization.role

end AuthorizationEntry

open AuthorizationEntry

variable {ρ : Type} [RegexEngine ρ]

namespace YamlCpp

variable (yaml : YamlCpp)

/-- The two nested loops of `load` over the decoded document. -/
def loadSpecs (node : YamlNode) : Except Exn (List (AuthorizationSpec ρ)) := do
  let config ← yaml.asMap (yaml.asMap yaml.decodeAuthorization) node
  let entries := ofUsers (config.toList.map fun user => (user.1, user.2.toList))
  entries.mapM AuthorizationEntry.spec

end YamlCpp

namespace AuthorizationRepository

/-- `load`, given what reading the file gives. -/
def load (yaml : YamlCpp) (file : Except Exn YamlNode) : Except Exn (AuthorizationRepository ρ) := do
  let node ← file
  let specs ← yaml.loadSpecs node
  return ofSpecs specs

/-- With a path configured the repository is loaded, whatever the command line says. -/
theorem make_of_path (yaml : YamlCpp) (readFile : Bytes → Except Exn YamlNode) (path : Bytes)
    (cmdLineSpecs : List (AuthorizationSpec ρ)) :
    make (some path) cmdLineSpecs (fun path => readFile path >>= yaml.loadSpecs) =
      load yaml (readFile path) := by
  show (readFile path >>= yaml.loadSpecs) >>= _ = _
  cases readFile path <;> rfl

end AuthorizationRepository

/-! ## The order of the specifications -/

namespace YamlCpp

variable (yaml : YamlCpp) {ν μ : Type}

/-- The entries of a map node in the order of the document. -/
def asPairs (asValue : YamlNode → Except Exn ν) : YamlNode → Except Exn (List (Bytes × ν))
  | .map entries => entries.mapM (yaml.asPair asValue)
  | _ => .error badConversion

/-- The document as it is written. -/
def document : YamlNode → Except Exn (List (Bytes × List (Bytes × Authorization))) :=
  yaml.asPairs (yaml.asPairs yaml.decodeAuthorization)

theorem asMap_eq (asValue : YamlNode → Except Exn ν) (node : YamlNode) :
    yaml.asMap asValue node = (yaml.asPairs asValue node).map OrdMap.ofEntries := by
  cases node with
  | map entries => exact Except.foldlM_eq_map_mapM (yaml.asPair asValue) _ ∅ entries
  | _ => rfl

theorem asPairs_map (asValue : YamlNode → Except Exn ν) (f : ν → μ) (node : YamlNode) :
    yaml.asPairs (fun node => (asValue node).map f) node =
      (yaml.asPairs asValue node).map (List.map fun pair => (pair.1, f pair.2)) := by
  cases node with
  | map entries =>
      have hpair : yaml.asPair (fun node => (asValue node).map f) =
          fun entry => (yaml.asPair asValue entry).map fun pair => (pair.1, f pair.2) := by
        funext entry
        show ((asValue entry.2).map f >>= fun value =>
            yaml.asString entry.1 >>= fun key => Except.ok (key, value)) =
          (asValue entry.2 >>= fun value =>
            yaml.asString entry.1 >>= fun key => Except.ok (key, value)).map _
        cases asValue entry.2 with
        | error e => rfl
        | ok value => cases yaml.asString entry.1 <;> rfl
      show entries.mapM (yaml.asPair fun node => (asValue node).map f) = _
      rw [hpair, Except.mapM_map]
      rfl
  | _ => rfl

/-- The maps are those of the entries as they are written. -/
theorem asMap_asMap_eq (node : YamlNode) :
    yaml.asMap (yaml.asMap yaml.decodeAuthorization) node =
      (yaml.document node).map fun users =>
        OrdMap.ofEntries (users.map fun user => (user.1, OrdMap.ofEntries user.2)) := by
  have hinner : yaml.asMap yaml.decodeAuthorization =
      fun node => (yaml.asPairs yaml.decodeAuthorization node).map OrdMap.ofEntries :=
    funext (yaml.asMap_eq yaml.decodeAuthorization)
  rw [asMap_eq, hinner, asPairs_map, document]
  cases yaml.asPairs (yaml.asPairs yaml.decodeAuthorization) node <;> rfl

end YamlCpp

/-- No user pattern comes twice, and no topic pattern twice under a user pattern. -/
def DistinctKeys (users : List (Bytes × List (Bytes × Authorization))) : Prop :=
  (users.map Prod.fst).Nodup ∧ ∀ user ∈ users, (user.2.map Prod.fst).Nodup

instance decidableDistinctKeys (users : List (Bytes × List (Bytes × Authorization))) :
    Decidable (DistinctKeys users) :=
  inferInstanceAs (Decidable (_ ∧ _))

namespace AuthorizationEntry

/-- The entries in the order in which the maps are gone through. -/
def ascending (users : List (Bytes × List (Bytes × Authorization))) : List AuthorizationEntry :=
  ofUsers ((OrdMap.ofEntries (users.map fun user => (user.1, OrdMap.ofEntries user.2))).toList.map
    fun user => (user.1, user.2.toList))

/-- Going through the maps meets every entry once. -/
theorem perm_ascending {users : List (Bytes × List (Bytes × Authorization))}
    (h : DistinctKeys users) : (ascending users).Perm (ofUsers users) := by
  have hkeys : ((users.map fun user => (user.1, OrdMap.ofEntries user.2)).map Prod.fst).Nodup := by
    rw [List.map_map]
    exact h.1
  have houter := OrdMap.perm_toList_ofEntries hkeys
  unfold ascending ofUsers
  rw [List.flatMap_map]
  refine (houter.flatMap_right _).trans ?_
  rw [List.flatMap_map]
  refine List.Perm.flatMap_left users fun user huser => ?_
  exact (OrdMap.perm_toList_ofEntries (h.2 user huser)).map _

/-- And it meets them in ascending order. -/
theorem pairwise_ascending (users : List (Bytes × List (Bytes × Authorization))) :
    (ascending users).Pairwise Before := by
  unfold ascending ofUsers
  rw [List.flatMap_map, List.pairwise_flatMap]
  constructor
  · intro user _
    rw [List.pairwise_map]
    refine Std.ExtTreeMap.ordered_keys_toList.imp ?_
    intro e f hlt
    exact .inr ⟨rfl, hlt⟩
  · refine Std.ExtTreeMap.ordered_keys_toList.imp ?_
    intro user user' hlt x hx y hy
    obtain ⟨e, -, rfl⟩ := List.mem_map.mp hx
    obtain ⟨f, -, rfl⟩ := List.mem_map.mp hy
    exact .inl hlt

theorem Before.asymm {e f : AuthorizationEntry} (h : Before e f) : ¬ Before f e := by
  have hlt (a b : Bytes) (hab : compare a b = .lt) : compare b a ≠ .lt := by
    intro hba
    have hgt := Std.OrientedOrd.eq_swap (a := b) (b := a)
    rw [hab, hba] at hgt
    cases hgt
  rcases h with huser | ⟨huser, htopic⟩
  · rintro (huser' | ⟨huser', -⟩)
    · exact hlt _ _ huser huser'
    · rw [huser', Std.compare_self] at huser
      cases huser
  · rintro (huser' | ⟨-, htopic'⟩)
    · rw [huser, Std.compare_self] at huser'
      cases huser'
    · exact hlt _ _ htopic htopic'

/-- A document written in ascending order is gone through in its own order. -/
theorem ascending_eq {users : List (Bytes × List (Bytes × Authorization))} (h : DistinctKeys users)
    (hascending : (ofUsers users).Pairwise Before) : ascending users = ofUsers users :=
  (perm_ascending h).eq_of_pairwise (fun _ _ _ _ hbefore hafter => absurd hafter hbefore.asymm)
    (pairwise_ascending users) hascending

end AuthorizationEntry

/-- The specifications of a document are those of its entries in ascending order. -/
theorem loadSpecs_eq (yaml : YamlCpp) {node : YamlNode}
    {users : List (Bytes × List (Bytes × Authorization))} (hdoc : yaml.document node = .ok users) :
    yaml.loadSpecs node =
      ((ascending users).mapM AuthorizationEntry.spec : Except Exn (List (AuthorizationSpec ρ))) := by
  rw [YamlCpp.loadSpecs, YamlCpp.asMap_asMap_eq, hdoc]
  rfl

/-! ## Tom in front of everybody -/

/-- Conversions that take a scalar as it stands, and a number as `std::stoi` does. -/
def YamlCpp.plain : YamlCpp where
  asString
    | .scalar text => .ok text
    | _ => .error badConversion
  asInt
    | .scalar text => stoi text
    | _ => .error badConversion

/-- One entitlement, for subscribers. -/
def YamlNode.authorization (entitlement : Bytes) : YamlNode :=
  .map [(.scalar (ascii "entitlements"), .sequence [.scalar entitlement]),
    (.scalar (ascii "roles"), .sequence [.scalar (ascii "Subscriber")])]

/-- `tom: {A: 1}` and behind it `.*: {A: 2}`. -/
def YamlNode.tomFirst : YamlNode :=
  .map [(.scalar (ascii "tom"), .map [(.scalar (ascii "A"), .authorization (ascii "1"))]),
    (.scalar (ascii ".*"), .map [(.scalar (ascii "A"), .authorization (ascii "2"))])]

/-- What `tomFirst` says, as it is written. -/
def usersTomFirst : List (Bytes × List (Bytes × Authorization)) :=
  [(ascii "tom", [(ascii "A", ⟨[1], Role.subscriber⟩)]),
    (ascii ".*", [(ascii "A", ⟨[2], Role.subscriber⟩)])]

namespace AuthorizationRepository

/-! ### What is loaded -/

/-- **What a file stands for**: the list of its entries in ascending order, by user pattern and then by
topic pattern. The repository loaded from it gives every user the same entitlements, on every topic and
in every role, as one built from the specifications of that list. -/
theorem load_ascending (yaml : YamlCpp) (node : YamlNode)
    (users : List (Bytes × List (Bytes × Authorization))) (hdoc : yaml.document node = .ok users)
    (hdistinct : DistinctKeys users) :
    ∃ entries : List AuthorizationEntry,
      entries.Perm (ofUsers users) ∧ entries.Pairwise Before ∧
      ∀ specs : List (AuthorizationSpec ρ), entries.mapM AuthorizationEntry.spec = .ok specs →
        ∃ repository : AuthorizationRepository ρ, load yaml (.ok node) = .ok repository ∧
          ∀ user topic role, (repository.entitlements user topic role).1 =
            ((ofSpecs specs).entitlements user topic role).1 := by
  refine ⟨ascending users, perm_ascending hdistinct, pairwise_ascending users, ?_⟩
  intro specs hspecs
  refine ⟨ofSpecs specs, ?_, fun _ _ _ => rfl⟩
  show (yaml.loadSpecs node >>= fun specs => Except.ok (ofSpecs specs)) = _
  rw [loadSpecs_eq yaml hdoc, hspecs]
  rfl

theorem load_ascending_tomFirst :
    ∃ entries : List AuthorizationEntry,
      entries.Perm (ofUsers usersTomFirst) ∧ entries.Pairwise Before ∧
      ∀ specs : List (AuthorizationSpec PlainRegex),
        entries.mapM AuthorizationEntry.spec = .ok specs →
        ∃ repository : AuthorizationRepository PlainRegex,
          load YamlCpp.plain (.ok .tomFirst) = .ok repository ∧
          ∀ user topic role, (repository.entitlements user topic role).1 =
            ((ofSpecs specs).entitlements user topic role).1 :=
  load_ascending YamlCpp.plain .tomFirst usersTomFirst rfl (by decide)

/-- The list that is written gives Tom his own entitlement, the file that of everybody. -/
theorem load_tomFirst :
    YamlCpp.plain.document .tomFirst = .ok usersTomFirst ∧ DistinctKeys usersTomFirst ∧
    (∃ specs : List (AuthorizationSpec PlainRegex),
      (ofUsers usersTomFirst).mapM AuthorizationEntry.spec = .ok specs ∧
      ((ofSpecs specs).entitlements (ascii "tom") (ascii "A") Role.subscriber).1 = {1}) ∧
    ∃ repository : AuthorizationRepository PlainRegex,
      load YamlCpp.plain (.ok .tomFirst) = .ok repository ∧
      (repository.entitlements (ascii "tom") (ascii "A") Role.subscriber).1 = {2} := by
  refine ⟨rfl, by decide, ⟨_, rfl, ?_⟩, ⟨_, rfl, ?_⟩⟩
  · rw [entitlements_fst]
    decide
  · rw [entitlements_fst]
    decide

/-- From a document in ascending order the repository of its own list is loaded. -/
theorem load_of_ascending (yaml : YamlCpp) {node : YamlNode}
    {users : List (Bytes × List (Bytes × Authorization))} (hdoc : yaml.document node = .ok users)
    (hdistinct : DistinctKeys users) (hascending : (ofUsers users).Pairwise Before) :
    load yaml (.ok node) =
      ((ofUsers users).mapM AuthorizationEntry.spec).map (@ofSpecs ρ _) := by
  show (yaml.loadSpecs node >>= fun specs => Except.ok (ofSpecs specs)) = _
  rw [loadSpecs_eq yaml hdoc, ascending_eq hdistinct hascending]
  cases (ofUsers users).mapM (@AuthorizationEntry.spec ρ _) <;> rfl

end AuthorizationRepository

end SquawkBus.Server
