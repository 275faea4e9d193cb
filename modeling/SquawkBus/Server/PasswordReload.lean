import SquawkBus.Server.Authentication

/-!
# Reloading the password file

`AuthenticationManager::load` runs at the start and again on every interrupt, over whatever the file
holds by then. It collects the records in a map of its own and replaces the repository only behind the
last line, so a load either takes the whole file or changes nothing. What it makes of a file is said line
by line: `record?` is the user and the hash of one line, and the first line of a user counts.
-/

namespace SquawkBus.Server

open SquawkBus.Messages SquawkBus.Serialization

/-! ## The lines of a file -/

/-- `std::getline`: the characters up to the next newline, which is taken off and dropped, and those
behind it. It fails only where no character is left. -/
def getline (text : Bytes) : Option (Bytes × Bytes) :=
  if text = [] then none
  else some (text.takeWhile (· != 10), (text.dropWhile (· != 10)).tail)

theorem getline_lt {text line rest : Bytes} (h : getline text = some (line, rest)) :
    rest.length < text.length := by
  unfold getline at h
  split at h
  · cases h
  · next hne =>
    cases h
    have hpos : 0 < text.length := List.length_pos_iff.mpr hne
    have hdrop : (text.dropWhile (· != 10)).length ≤ text.length :=
      (List.dropWhile_suffix _).length_le
    rw [List.length_tail]
    omega

/-- The lines that the loop over `std::getline` comes to. -/
def getlines (text : Bytes) : List Bytes :=
  match _ : getline text with
  | none => []
  | some (line, rest) => line :: getlines rest
termination_by text.length
decreasing_by exact getline_lt ‹_›

namespace AuthenticationManager

/-- Whether a line is a comment. -/
def isComment (line : Bytes) : Bool := line.head? == some 35

/-- The hash that a line has for a user: it is no comment, and what is in front of its first colon is
the user. -/
def record? (user line : Bytes) : Option Bytes :=
  if isComment line then none
  else
    match line.idxOf? 58 with
    | none => none
    | some colon => if line.take colon = user then some (line.drop (colon + 1)) else none

theorem record?_of_comment {line : Bytes} (h : isComment line = true) (user : Bytes) :
    record? user line = none := by
  rw [record?, if_pos h]

theorem record?_of_colon {line : Bytes} {colon : Nat} (h : isComment line = false)
    (hcolon : line.idxOf? 58 = some colon) (user : Bytes) :
    record? user line = if line.take colon = user then some (line.drop (colon + 1)) else none := by
  rw [record?, h, hcolon]
  rfl

/-- **The record of a line**, in one piece: the user, a colon, and the hash. -/
theorem record?_eq_some_iff {user line data : Bytes} :
    record? user line = some data ↔
      line.head? ≠ some 35 ∧ line = user ++ 58 :: data ∧ 58 ∉ user := by
  constructor
  · intro h
    rw [record?] at h
    split at h
    · cases h
    · next hcomment =>
      split at h
      · cases h
      · next colon hcolon =>
        split at h
        · next huser =>
          cases h
          obtain ⟨hline, hfield⟩ := List.append_cons_of_idxOf? hcolon
          rw [huser] at hline hfield
          exact ⟨fun hhead => hcomment (beq_iff_eq.mpr hhead), hline, hfield⟩
        · cases h
  · rintro ⟨hcomment, rfl, huser⟩
    rw [record?_of_colon (beq_eq_false_iff_ne.mpr hcomment) (List.idxOf?_append_cons huser)]
    simp

/-! ### One line -/

theorem parse_cons_comment {line : Bytes} (h : isComment line = true) (lines : List Bytes)
    (entries : OrdMap Bytes Bytes) : parse (line :: lines) entries = parse lines entries := by
  rw [parse, if_pos (eq_of_beq h)]

theorem parse_cons_bad {line : Bytes} (h : isComment line = false) (hcolon : line.idxOf? 58 = none)
    (lines : List Bytes) (entries : OrdMap Bytes Bytes) :
    parse (line :: lines) entries = .error (.runtimeError "invalid password record") := by
  rw [parse, if_neg (ne_of_beq_false h), hcolon]

theorem parse_cons_record {line : Bytes} {colon : Nat} (h : isComment line = false)
    (hcolon : line.idxOf? 58 = some colon) (lines : List Bytes) (entries : OrdMap Bytes Bytes) :
    parse (line :: lines) entries =
      parse lines (entries.insertIfNew (line.take colon) (line.drop (colon + 1))) := by
  rw [parse, if_neg (ne_of_beq_false h), hcolon]

/-- **When the lines are accepted**: each that is no comment has a colon. -/
theorem parse_returns_iff (lines : List Bytes) (entries : OrdMap Bytes Bytes) :
    (∃ entries', parse lines entries = .ok entries') ↔
      ∀ line ∈ lines, isComment line = false → 58 ∈ line := by
  induction lines generalizing entries with
  | nil => exact ⟨fun _ line hline => absurd hline List.not_mem_nil, fun _ => ⟨entries, rfl⟩⟩
  | cons line lines ih =>
      rw [List.forall_mem_cons]
      cases hcomment : isComment line with
      | true =>
          rw [parse_cons_comment hcomment, ih]
          exact ⟨fun h => ⟨fun hfalse => (nomatch hfalse), h⟩, fun h => h.2⟩
      | false =>
          cases hcolon : line.idxOf? 58 with
          | none =>
              have hno : 58 ∉ line := List.idxOf?_eq_none_iff.mp hcolon
              rw [parse_cons_bad hcomment hcolon]
              constructor
              · rintro ⟨entries', h⟩
                cases h
              · intro h
                exact absurd (h.1 rfl) hno
          | some colon =>
              have hyes : 58 ∈ line := by
                by_contra hno
                rw [List.idxOf?_eq_none_iff.mpr hno] at hcolon
                cases hcolon
              rw [parse_cons_record hcomment hcolon, ih]
              exact ⟨fun h => ⟨fun _ => hyes, h⟩, fun h => h.2⟩

/-! ### What is read -/

/-- **What the lines are taken to say** of a user: what is known already, else the first record. -/
theorem get_parse {lines : List Bytes} {entries entries' : OrdMap Bytes Bytes}
    (h : parse lines entries = .ok entries') (user : Bytes) :
    entries'[user]? = (entries[user]?).or (lines.findSome? (record? user)) := by
  induction lines generalizing entries with
  | nil =>
      cases h
      rw [List.findSome?_nil, Option.or_none]
  | cons line lines ih =>
      rw [List.findSome?_cons]
      cases hcomment : isComment line with
      | true =>
          rw [parse_cons_comment hcomment] at h
          rw [ih h, record?_of_comment hcomment]
      | false =>
          cases hcolon : line.idxOf? 58 with
          | none =>
              rw [parse_cons_bad hcomment hcolon] at h
              cases h
          | some colon =>
              rw [parse_cons_record hcomment hcolon] at h
              rw [ih h, record?_of_colon hcomment hcolon, OrdMap.get_insertIfNew]
              by_cases huser : line.take colon = user
              · subst huser
                -- The record counts if there is none of the user yet.
                cases hentry : entries[line.take colon]? with
                | none =>
                    have hnew : line.take colon ∉ entries := by
                      rw [OrdMap.mem_iff_get, hentry]
                      simp
                    rw [if_pos ⟨rfl, hnew⟩, if_pos rfl]
                    rfl
                | some data =>
                    have hold : line.take colon ∈ entries := OrdMap.mem_iff_get.mpr ⟨data, hentry⟩
                    rw [if_neg fun h => h.2 hold]
                    rfl
              · rw [if_neg fun h => huser h.1, if_neg huser]

/-! ## Loading -/

/-- A load that throws has not touched the manager. -/
def reload (manager : AuthenticationManager) (file : Option Bytes) : AuthenticationManager :=
  match manager.load (file.map getlines) with
  | .ok manager' => manager'
  | .error _ => manager

theorem load_of_file {manager : AuthenticationManager} (h : manager.passwordFile.isSome)
    (text : Bytes) :
    manager.load ((some text).map getlines) =
      (parse (getlines text) ∅).map fun entries => { manager with repository := ⟨entries⟩ } := by
  obtain ⟨path, hpath⟩ := Option.isSome_iff_exists.mp h
  rw [Option.map_some, load, hpath]
  show (parse (getlines text) ∅ >>= fun entries => _) = _
  cases parse (getlines text) ∅ <;> rfl

theorem load_of_no_file {manager : AuthenticationManager} (h : manager.passwordFile.isSome) :
    manager.load none = .error (.runtimeError "failed to open password file") := by
  obtain ⟨path, hpath⟩ := Option.isSome_iff_exists.mp h
  rw [load, hpath]

/-- **When a load returns**: the file opens, and each of its lines that is no comment has a colon. -/
theorem load_returns_iff {manager : AuthenticationManager} (h : manager.passwordFile.isSome)
    (file : Option Bytes) :
    (∃ manager', manager.load (file.map getlines) = .ok manager') ↔
      ∃ text, file = some text ∧ ∀ line ∈ getlines text, isComment line = false → 58 ∈ line := by
  cases file with
  | none =>
      rw [Option.map_none, load_of_no_file h]
      simp
  | some text =>
      rw [load_of_file h]
      simp only [Option.some.injEq, exists_eq_left', ← parse_returns_iff _ ∅]
      cases parse (getlines text) ∅ <;> simp [Except.map]

/-- **What a load makes of the file**: the first record of each user, and nothing else. -/
theorem get_of_load {manager manager' : AuthenticationManager} (h : manager.passwordFile.isSome)
    {text : Bytes} (hload : manager.load ((some text).map getlines) = .ok manager') (user : Bytes) :
    manager'.repository.entries[user]? = (getlines text).findSome? (record? user) := by
  rw [load_of_file h] at hload
  cases hparse : parse (getlines text) ∅ with
  | error e =>
      rw [hparse] at hload
      cases hload
  | ok entries =>
      rw [hparse] at hload
      cases hload
      rw [get_parse hparse user]
      simp

theorem passwordFile_load {manager manager' : AuthenticationManager}
    {file : Option (List Bytes)} (h : manager.load file = .ok manager') :
    manager'.passwordFile = manager.passwordFile := by
  unfold load at h
  split at h
  · cases h
    rfl
  · cases file with
    | none => cases h
    | some lines =>
        obtain ⟨entries, -, hmanager⟩ := Except.bind_eq_ok.mp h
        cases hmanager
        rfl

theorem passwordFile_reload (manager : AuthenticationManager) (file : Option Bytes) :
    (manager.reload file).passwordFile = manager.passwordFile := by
  unfold reload
  cases hload : manager.load (file.map getlines) with
  | error e => rfl
  | ok manager' => exact passwordFile_load hload

/-- The configured file stays the configured file. -/
theorem passwordFile_foldl_reload (manager : AuthenticationManager) (files : List (Option Bytes)) :
    (files.foldl reload manager).passwordFile = manager.passwordFile := by
  induction files generalizing manager with
  | nil => rfl
  | cons file files ih => rw [List.foldl_cons, ih, passwordFile_reload]

/-- **Reloading is all or nothing.** Over any loads, whatever the file holds at each of them: a load
that throws shows in no later answer; one that returns leaves for each user the text behind the first
colon of the first line of the user that is no comment, and for nobody else anything; and it returns
exactly when the file opens and every line that is no comment has a colon. -/
theorem reload_all_or_nothing (path : Bytes) (files : List (Option Bytes)) (file : Option Bytes) :
    let manager := files.foldl reload (.new (some path))
    ((∃ e, manager.load (file.map getlines) = .error e) →
      ∀ (later : List (Option Bytes)) (md5 : Bytes → Bytes) (message : AuthenticationRequest),
        ((file :: later).foldl reload manager).authenticate md5 message =
          (later.foldl reload manager).authenticate md5 message) ∧
    (∀ manager', manager.load (file.map getlines) = .ok manager' →
      manager.reload file = manager' ∧ ∃ text, file = some text ∧
        ∀ user data, manager'.repository.entries[user]? = some data ↔
          ∃ before line after, getlines text = before ++ line :: after ∧
            (line.head? ≠ some 35 ∧ line = user ++ 58 :: data ∧ 58 ∉ user) ∧
            ∀ line' ∈ before, ¬ ∃ data', line'.head? ≠ some 35 ∧ line' = user ++ 58 :: data' ∧
              58 ∉ user) ∧
    ((∃ manager', manager.load (file.map getlines) = .ok manager') ↔
      ∃ text, file = some text ∧ ∀ line ∈ getlines text, line.head? ≠ some 35 → 58 ∈ line) := by
  intro manager
  have hfile : manager.passwordFile.isSome := by
    show (files.foldl reload (.new (some path))).passwordFile.isSome
    rw [passwordFile_foldl_reload]
    rfl
  have hcomment (line : Bytes) : line.head? ≠ some 35 ↔ isComment line = false :=
    beq_eq_false_iff_ne.symm
  refine ⟨?_, ?_, ?_⟩
  · rintro ⟨e, hload⟩ later md5 message
    have hsame : manager.reload file = manager := by rw [reload, hload]
    rw [List.foldl_cons, hsame]
  · intro manager' hload
    obtain ⟨text, rfl, -⟩ := (load_returns_iff hfile file).mp ⟨manager', hload⟩
    refine ⟨by rw [reload, hload], text, rfl, fun user data => ?_⟩
    rw [get_of_load hfile hload, List.findSome?_eq_some_iff]
    simp only [record?_eq_some_iff, Option.eq_none_iff_forall_ne_some, ne_eq, not_exists]
  · simp only [load_returns_iff hfile, hcomment]

end AuthenticationManager

end SquawkBus.Server
