import Mathlib.Data.List.TakeWhile
import SquawkBus.Library.Split
import SquawkBus.Server.Authorization

/-!
# Authorizations on the command line

`AuthorizationSpec::from` reads a specification from an argument. The documented form is
`user:topic:entitlements:roles`; what is read is right when the user pattern and the topic pattern are
the same, since the first field is taken for the topic pattern and the second for that of the user.
-/

namespace SquawkBus.Server

variable {ρ : Type} [RegexEngine ρ]

/-! ## Numbers -/

/-- The characters that `std::stoi` skips. -/
def isSpace (c : UInt8) : Bool := c == 32 || (9 ≤ c && c ≤ 13)

def isDigit (c : UInt8) : Bool := 48 ≤ c && c ≤ 57

/-- The value of a string of digits. -/
def decimalValue (digits : Bytes) : Nat := digits.foldl (fun n c => 10 * n + (c.toNat - 48)) 0

/-- The sign in front of a number, and what is behind it. -/
def takeSign : Bytes → Bool × Bytes
  | 45 :: text => (true, text)
  | 43 :: text => (false, text)
  | text => (false, text)

/-- `std::stoi`, for which whatever follows the digits does not matter. -/
def stoi (text : Bytes) : Except Exn Int32 :=
  let (negative, text) := takeSign (text.dropWhile isSpace)
  let digits := text.takeWhile isDigit
  if digits = [] then .error (.invalidArgument "stoi")
  else
    let value : Int := if negative then -decimalValue digits else decimalValue digits
    if -(2 ^ 31) ≤ value ∧ value < 2 ^ 31 then .ok (Int32.ofInt value)
    else .error (.outOfRange "stoi")

/-! ## Roles -/

/-- The role of a name; the names of the three roles are all there are. -/
def roleOf (name : Bytes) : Except Exn Role :=
  if name = ascii "Subscriber" then .ok Role.subscriber
  else if name = ascii "Publisher" then .ok Role.publisher
  else if name = ascii "Notifier" then .ok Role.notifier
  else .error (.runtimeError
    ("unknown role \"" ++ String.ofList (name.map fun c => Char.ofNat c.toNat) ++ "\""))

/-! ## The specification -/

/-- `AuthorizationSpec::from`. -/
def AuthorizationSpec.fromLine (line : Bytes) : Except Exn (AuthorizationSpec ρ) :=
  match line.fields 58 with
  -- The first field is the topic pattern here, where the usage text has the user.
  | [topicPattern, userPattern, entitlements, roles] => do
      let entitlements ← (entitlements.fields 44).mapM stoi
      let roles ← (roles.fields 44).mapM roleOf
      AuthorizationSpec.make userPattern topicPattern entitlements.toFinset
        (roles.foldl (· ||| ·) 0)
  | args => .error (.runtimeError ("expected 4 parts, found " ++ toString args.length ++ "."))

/-! ## The documented form -/

/-- The text is an integer in decimal: digits, after a minus sign if it is negative. -/
inductive Decimal : Bytes → Int → Prop
  | natural (digits : Bytes) (hne : digits ≠ []) (hdigits : ∀ c ∈ digits, isDigit c) :
      Decimal digits (decimalValue digits)
  | negative (digits : Bytes) (hne : digits ≠ []) (hdigits : ∀ c ∈ digits, isDigit c) :
      Decimal (45 :: digits) (-decimalValue digits)

/-- An `int32` written in decimal. -/
structure Numeral where
  text : Bytes
  value : Int32
  decimal : Decimal text value.toInt

inductive RoleName where
  | subscriber
  | publisher
  | notifier
  deriving DecidableEq

namespace RoleName

def text : RoleName → Bytes
  | subscriber => ascii "Subscriber"
  | publisher => ascii "Publisher"
  | notifier => ascii "Notifier"

def role : RoleName → Role
  | subscriber => Role.subscriber
  | publisher => Role.publisher
  | notifier => Role.notifier

/-- The union of the roles named. -/
def union (names : List RoleName) : Role := names.foldl (fun roles name => roles ||| name.role) 0

end RoleName

/-- `user:topic:entitlements:roles`. -/
def documentedLine (user topic : Bytes) (entitlements : List Numeral) (roles : List RoleName) :
    Bytes :=
  [58].intercalate [user, topic, [44].intercalate (entitlements.map (·.text)),
    [44].intercalate (roles.map (·.text))]

/-- **The specification is the documented one**: it has the patterns, the entitlements and the roles
written, and a repository made from it grants the entitlements to the users, on the topics and in the
roles they say, and nothing to others. -/
structure StandsFor (user topic : Bytes) (granted : Finset Int32) (allowed : Role)
    (spec : AuthorizationSpec ρ) : Prop where
  userPattern : spec.userPattern = user
  topicPattern : spec.topicPattern = topic
  entitlements : spec.entitlements = granted
  roles : spec.roles = allowed
  grants : ∀ file repository, AuthorizationRepository.make none [spec] file = .ok repository →
    ∀ u t role, Matches ρ user u → Matches ρ topic t → role &&& allowed = role →
      (repository.entitlements u t role).1 = granted
  grantsNoOther : ∀ file repository, AuthorizationRepository.make none [spec] file = .ok repository →
    ∀ u t role, ¬ (Matches ρ user u ∧ Matches ρ topic t ∧ role &&& allowed = role) →
      (repository.entitlements u t role).1 = ∅

/-! ## Reading the parts -/

theorem Decimal.ne_nil {text : Bytes} {i : Int} (h : Decimal text i) : text ≠ [] := by
  cases h with
  | natural _ hne _ => exact hne
  | negative _ _ _ => exact List.cons_ne_nil _ _

/-- There is no separator in a number. -/
theorem Decimal.no_separator {text : Bytes} {i : Int} (h : Decimal text i) {sep : UInt8}
    (hdigit : isDigit sep = false) (hminus : sep ≠ 45) : sep ∉ text := by
  have hdigits : ∀ digits : Bytes, (∀ c ∈ digits, isDigit c) → sep ∉ digits := by
    intro digits hall hmem
    rw [hall sep hmem] at hdigit
    cases hdigit
  cases h with
  | natural _ _ hall => exact hdigits _ hall
  | negative digits _ hall =>
      rw [List.mem_cons, not_or]
      exact ⟨hminus, hdigits digits hall⟩

theorem isSpace_of_isDigit {c : UInt8} (h : isDigit c = true) : isSpace c = false := by
  simp only [isDigit, Bool.and_eq_true, decide_eq_true_eq, UInt8.le_iff_toNat_le] at h
  have hne : c ≠ 32 := by
    rintro rfl
    exact absurd h.1 (by decide)
  have hle : ¬ c ≤ 13 := by
    rw [UInt8.le_iff_toNat_le]
    intro hle
    have h48 : (48 : UInt8).toNat = 48 := rfl
    have h13 : (13 : UInt8).toNat = 13 := rfl
    omega
  simp [isSpace, hne, hle]

theorem takeSign_of_isDigit {c : UInt8} (h : isDigit c = true) (cs : Bytes) :
    takeSign (c :: cs) = (false, c :: cs) := by
  unfold takeSign
  split
  · next heq =>
    obtain ⟨rfl, -⟩ := List.cons.inj heq
    exact absurd h (by decide)
  · next heq =>
    obtain ⟨rfl, -⟩ := List.cons.inj heq
    exact absurd h (by decide)
  · rfl

/-- **`std::stoi` reads what is written in decimal.** -/
theorem Decimal.stoi_eq {text : Bytes} {i : Int} (h : Decimal text i) (hlo : -(2 ^ 31) ≤ i)
    (hhi : i < 2 ^ 31) : stoi text = .ok (Int32.ofInt i) := by
  have htake : ∀ digits : Bytes, (∀ c ∈ digits, isDigit c) → digits.takeWhile isDigit = digits :=
    fun digits hall => List.takeWhile_eq_self_iff.mpr hall
  cases h with
  | natural digits hne hall =>
      have hskip : text.dropWhile isSpace = text := by
        cases text with
        | nil => rfl
        | cons c cs =>
            rw [List.dropWhile_cons, isSpace_of_isDigit (hall c (by simp))]
            rfl
      have hsign : takeSign text = (false, text) := by
        cases text with
        | nil => rfl
        | cons c cs => exact takeSign_of_isDigit (hall c (by simp)) cs
      unfold stoi
      rw [hskip, hsign]
      simp only [htake text hall, hne, if_false, Bool.false_eq_true]
      rw [if_pos ⟨hlo, hhi⟩]
  | negative digits hne hall =>
      have hskip : (45 :: digits).dropWhile isSpace = 45 :: digits := rfl
      have hsign : takeSign (45 :: digits) = (true, digits) := rfl
      unfold stoi
      rw [hskip, hsign]
      simp only [htake digits hall, hne, if_false, if_true]
      rw [if_pos ⟨hlo, hhi⟩]

theorem Numeral.stoi_text (n : Numeral) : stoi n.text = .ok n.value := by
  rw [n.decimal.stoi_eq n.value.le_toInt n.value.toInt_lt, Int32.ofInt_toInt]

theorem RoleName.roleOf_text (name : RoleName) : roleOf name.text = .ok name.role := by
  cases name <;> rfl

/-- A list of texts that can all be read is read. -/
theorem mapM_map_text {α β : Type} {text : α → Bytes} {value : α → β} {read : Bytes → Except Exn β}
    (h : ∀ a, read (text a) = .ok (value a)) (as : List α) :
    (as.map text).mapM read = .ok (as.map value) := by
  induction as with
  | nil => rfl
  | cons a as ih =>
      rw [List.map_cons, List.mapM_cons, h, ih]
      rfl

/-- A list of texts between commas, none of which is empty or has a comma in it, is read. -/
theorem fields_of_texts {texts : List Bytes} (hne : texts ≠ [])
    (htexts : ∀ text ∈ texts, text ≠ [] ∧ 44 ∉ text) :
    ([44].intercalate texts).fields 44 = texts := by
  refine List.fields_intercalate (fun text h => (htexts text h).2) ?_
  cases texts with
  | nil => exact absurd rfl hne
  | cons text texts =>
      cases texts with
      | nil => simpa using (htexts text (by simp)).1
      | cons _ _ => simp [List.intercalate]

/-! ## Reading a line -/

namespace AuthorizationSpec

/-- **What is read from a line in the documented form**: the first field becomes the topic pattern and
the second the user pattern. -/
theorem fromLine_documentedLine {user topic : Bytes} (huser : 58 ∉ user) (htopic : 58 ∉ topic)
    {entitlements : List Numeral} (hentitlements : entitlements ≠ []) {roles : List RoleName}
    (hroles : roles ≠ []) :
    (fromLine (documentedLine user topic entitlements roles) : Except Exn (AuthorizationSpec ρ)) =
      make topic user (entitlements.map (·.value)).toFinset (RoleName.union roles) := by
  have hnumbers : ([44].intercalate (entitlements.map (·.text))).fields 44 =
      entitlements.map (·.text) := by
    refine fields_of_texts (by simpa using hentitlements) fun text h => ?_
    obtain ⟨n, -, rfl⟩ := List.mem_map.mp h
    exact ⟨n.decimal.ne_nil, n.decimal.no_separator (by decide) (by decide)⟩
  have hnames : ([44].intercalate (roles.map (·.text))).fields 44 = roles.map (·.text) := by
    refine fields_of_texts (by simpa using hroles) fun text h => ?_
    obtain ⟨name, -, rfl⟩ := List.mem_map.mp h
    cases name <;> decide
  have hparts : (documentedLine user topic entitlements roles).fields 58 = [user, topic,
      [44].intercalate (entitlements.map (·.text)), [44].intercalate (roles.map (·.text))] := by
    refine List.fields_intercalate (fun part hpart => ?_) (by simp [List.intercalate])
    have hjoined : ∀ texts : List Bytes, (∀ text ∈ texts, 58 ∉ text) →
        58 ∉ [44].intercalate texts := by
      intro texts htexts hmem
      rcases List.mem_of_mem_intercalate hmem with hcomma | ⟨text, htext, hmem⟩
      · exact absurd hcomma (by decide)
      · exact htexts text htext hmem
    simp only [List.mem_cons, List.not_mem_nil, or_false] at hpart
    rcases hpart with rfl | rfl | rfl | rfl
    · exact huser
    · exact htopic
    · refine hjoined _ fun text h => ?_
      obtain ⟨n, -, rfl⟩ := List.mem_map.mp h
      exact n.decimal.no_separator (by decide) (by decide)
    · refine hjoined _ fun text h => ?_
      obtain ⟨name, -, rfl⟩ := List.mem_map.mp h
      cases name <;> decide
  have hunion : (roles.map (·.role)).foldl (· ||| ·) 0 = RoleName.union roles :=
    List.foldl_map
  unfold fromLine
  rw [hparts]
  simp only [hnumbers, hnames, mapM_map_text Numeral.stoi_text, mapM_map_text RoleName.roleOf_text,
    bind, Except.bind, hunion]

/-- A well-formed pattern matches what its regular expression does. -/
theorem matches_iff {pattern text : Bytes} {regex : ρ}
    (h : RegexEngine.compile pattern = some regex) :
    Matches ρ pattern text ↔ RegexEngine.isMatch text regex := by
  constructor
  · rintro ⟨regex', hregex', hmatch⟩
    rw [h] at hregex'
    cases hregex'
    exact hmatch
  · exact fun hmatch => ⟨regex, h, hmatch⟩

/-- A specification stands for what it holds. -/
theorem standsFor_self (spec : AuthorizationSpec ρ) :
    StandsFor spec.userPattern spec.topicPattern spec.entitlements spec.roles spec := by
  have happlies : ∀ u t role, spec.applies u t role ↔
      Matches ρ spec.userPattern u ∧ Matches ρ spec.topicPattern t ∧ role &&& spec.roles = role := by
    intro u t role
    rw [matches_iff spec.userRegex_eq, matches_iff spec.topicRegex_eq]
    simp [applies, and_assoc]
  have hscan : ∀ file repository,
      AuthorizationRepository.make none [spec] file = .ok repository → ∀ u t role,
        (repository.entitlements u t role).1 =
          if spec.applies u t role then spec.entitlements else ∅ := by
    intro file repository hmake u t role
    have hrepository : repository = .ofSpecs [spec] := (Except.ok.inj hmake).symm
    rw [hrepository, AuthorizationRepository.entitlements_fst]
    show scan [spec] u t role = _
    unfold scan
    rw [List.find?_cons]
    cases spec.applies u t role <;> rfl
  refine ⟨rfl, rfl, rfl, rfl, fun file repository hmake u t role hu ht hrole => ?_,
    fun file repository hmake u t role hnot => ?_⟩
  · rw [hscan file repository hmake, if_pos ((happlies u t role).mpr ⟨hu, ht, hrole⟩)]
  · rw [hscan file repository hmake, if_neg fun h => hnot ((happlies u t role).mp h)]

/-- **When an authorization on the command line means what its form says**: when its user pattern and
its topic pattern are the same. -/
theorem fromLine_standsFor_iff (user topic : Bytes) (huser : 58 ∉ user) (htopic : 58 ∉ topic)
    (huserRegex : (RegexEngine.compile user : Option ρ).isSome)
    (htopicRegex : (RegexEngine.compile topic : Option ρ).isSome) (entitlements : List Numeral)
    (hentitlements : entitlements ≠ []) (roles : List RoleName) (hroles : roles ≠ []) :
    (∃ spec : AuthorizationSpec ρ,
      fromLine (documentedLine user topic entitlements roles) = .ok spec ∧
        StandsFor user topic (entitlements.map (·.value)).toFinset (RoleName.union roles) spec) ↔
      user = topic := by
  obtain ⟨userRegex, hu⟩ := Option.isSome_iff_exists.mp huserRegex
  obtain ⟨topicRegex, ht⟩ := Option.isSome_iff_exists.mp htopicRegex
  have hmake : ∃ spec : AuthorizationSpec ρ,
      fromLine (documentedLine user topic entitlements roles) = .ok spec ∧
        spec.userPattern = topic ∧ spec.topicPattern = user ∧
        spec.entitlements = (entitlements.map (·.value)).toFinset ∧
        spec.roles = RoleName.union roles := by
    rw [fromLine_documentedLine huser htopic hentitlements hroles]
    unfold make
    split
    · exact ⟨_, rfl, rfl, rfl, rfl, rfl⟩
    · next hnone => exact absurd hu (hnone _ _ ht)
  obtain ⟨spec, hline, huserPattern, htopicPattern, hgranted, hallowed⟩ := hmake
  constructor
  · rintro ⟨spec', hline', hstands⟩
    rw [hline] at hline'
    cases hline'
    rw [← hstands.userPattern, huserPattern]
  · rintro rfl
    have hstands := spec.standsFor_self
    rw [huserPattern, htopicPattern, hgranted, hallowed] at hstands
    exact ⟨spec, hline, hstands⟩

/-- A line for every user on every topic. -/
theorem fromLine_standsFor_everybody :
    let one : Numeral := ⟨ascii "1", 1, .natural (ascii "1") (by decide) (List.all_eq_true.mp rfl)⟩
    ∃ spec : AuthorizationSpec PlainRegex,
      fromLine (documentedLine (ascii ".*") (ascii ".*") [one] [.subscriber, .notifier]) = .ok spec ∧
        StandsFor (ascii ".*") (ascii ".*") [1].toFinset
          (RoleName.union [.subscriber, .notifier]) spec :=
  (fromLine_standsFor_iff _ _ (by decide) (by decide) (by decide) (by decide) _ (by simp) _
    (by simp)).mpr rfl

/-- **Tom is taken for a topic**: the line that lets him subscribe to everything lets everybody
subscribe to the topic `tom`. -/
theorem tom_is_a_topic :
    let one : Numeral := ⟨ascii "1", 1, .natural (ascii "1") (by decide) (List.all_eq_true.mp rfl)⟩
    let two : Numeral := ⟨ascii "2", 2, .natural (ascii "2") (by decide) (List.all_eq_true.mp rfl)⟩
    let line := documentedLine (ascii "tom") (ascii ".*") [one, two] [.subscriber]
    line = ascii "tom:.*:1,2:Subscriber" ∧
      ¬ ∃ spec : AuthorizationSpec PlainRegex, fromLine line = .ok spec ∧
        StandsFor (ascii "tom") (ascii ".*") [1, 2].toFinset (RoleName.union [.subscriber]) spec := by
  intro one two line
  refine ⟨by decide, ?_⟩
  rintro ⟨spec, hline, hstands⟩
  have huser : (fromLine line : Except Exn (AuthorizationSpec PlainRegex)).toOption.map
      (·.userPattern) = some (ascii ".*") := by
    decide +kernel
  rw [hline] at huser
  have hswapped : spec.userPattern = ascii ".*" := Option.some.inj huser
  rw [hstands.userPattern] at hswapped
  exact absurd hswapped (by decide)

end AuthorizationSpec

end SquawkBus.Server
