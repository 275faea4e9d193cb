import SquawkBus.Library.Run
import SquawkBus.Io.File

/-!
# A descriptor closed once

A `File` is made for a descriptor and moved about until all the objects are gone. At any time one of
them at most holds the descriptor, and the others hold none (`Holder`, `Gone`). The destructor closes
when `is_open_` is *clear*: a `File` that has been closed is closed again, one that is still open never,
and only one whose flag was cleared by `is_open(false)` as often as it should be. `closed_once_iff` says
exactly this of every run.
-/

namespace SquawkBus.Io

namespace FileTable

/-- How often `::close` has been called for the descriptor. -/
def closes (d : Nat) (events : List CloseCall) : Nat := events.countP fun call => call.fd == (d : Int)

/-- The `File` under a number holds the descriptor. -/
def Holds (d : Nat) (table : FileTable) (i : Nat) : Prop :=
  ∃ file, table.file? i = some file ∧ file.fd = d

/-- The call is `close()`, on the `File` that holds the descriptor. -/
def ClosesHolder (d : Nat) (table : FileTable) : FileOp → Prop
  | .close i => table.Holds d i
  | _ => False

/-- The call is `is_open(false)`, on the `File` that holds the descriptor. -/
def ClearsHolder (d : Nat) (table : FileTable) : FileOp → Prop
  | .setClosed i => table.Holds d i
  | _ => False

/-- The one `File` that holds the descriptor, with its flag. -/
def Holder (d : Nat) (table : FileTable) (h : Nat) (isOpen : Bool) : Prop :=
  table.file? h = some ⟨d, isOpen⟩ ∧ ∀ i file, i ≠ h → table.file? i = some file → file.fd = -1

/-- No `File` holds a descriptor. -/
def Gone (table : FileTable) : Prop := ∀ i file, table.file? i = some file → file.fd = -1

variable {table : FileTable} {d h i : Nat} {file : File} {isOpen : Bool}

/-! ## The table after a call -/

theorem lt_of_file? (hi : table.file? i = some file) : i < table.files.length := by
  by_contra hge
  rw [file?, List.getElem?_eq_none (Nat.le_of_not_lt hge)] at hi
  cases hi

theorem AllDestroyed.file? (hdestroyed : table.AllDestroyed) (i : Nat) : table.file? i = none := by
  rw [FileTable.file?]
  cases hi : table.files[i]? with
  | none => rfl
  | some file => exact hdestroyed file (List.mem_of_getElem? hi)

theorem file?_put (hi : table.file? i = some file) (new : Option File) (j : Nat) :
    (table.put i new).file? j = if j = i then new else table.file? j := by
  have hlt := lt_of_file? hi
  unfold file? put
  rw [List.getElem?_set]
  by_cases hj : j = i
  · rw [if_pos hj, if_pos hj.symm, if_pos hlt]
    rfl
  · rw [if_neg hj, if_neg (Ne.symm hj)]

theorem file?_move (hi : table.file? i = some file) (moved : File × File) (j : Nat) :
    (table.move i moved).file? j =
      if j = i then some moved.2
      else if j = table.files.length then some moved.1 else table.file? j := by
  have hlt := lt_of_file? hi
  have hput := file?_put hi (some moved.2) j
  unfold file? put at hput
  unfold file? move
  rcases Nat.lt_trichotomy j table.files.length with hj | hj | hj
  · rw [List.getElem?_append_left (by rwa [List.length_set]), hput, if_neg (Nat.ne_of_lt hj)]
  · rw [List.getElem?_append_right (by rw [List.length_set, hj]), List.length_set, hj,
      Nat.sub_self, if_neg (Nat.ne_of_gt hlt), if_pos rfl]
    rfl
  · rw [List.getElem?_eq_none (by simp; omega), if_neg (by omega), if_neg (by omega),
      List.getElem?_eq_none (Nat.le_of_lt hj)]

/-! ## Calls on a `File` without a descriptor -/

theorem close_of_none {fd : Int} {descriptors : Finset Nat}
    (hnone : systemClose fd descriptors = none) :
    File.close ⟨fd, isOpen⟩ descriptors =
      ⟨(⟨fd, isOpen⟩, descriptors), [⟨fd, false⟩],
        some (.systemError "failed to close socket")⟩ := by
  rw [File.close, hnone]

theorem close_of_some {fd : Int} {descriptors descriptors' : Finset Nat}
    (hsome : systemClose fd descriptors = some descriptors') :
    File.close ⟨fd, isOpen⟩ descriptors = .emit (⟨fd, false⟩, descriptors') [⟨fd, true⟩] := by
  rw [File.close, hsome]
  rfl

theorem systemClose_neg (descriptors : Finset Nat) : systemClose (-1) descriptors = none :=
  if_neg fun hpos => absurd hpos.1 (by decide)

@[simp] theorem closes_nil (d : Nat) : closes d [] = 0 := rfl

theorem closes_append (d : Nat) (events more : List CloseCall) :
    closes d (events ++ more) = closes d events + closes d more := by
  rw [closes, List.countP_append]
  rfl

/-- A call of the system for another descriptor does not count. -/
theorem closes_neg (d : Nat) (succeeded : Bool) : closes d [⟨-1, succeeded⟩] = 0 := by
  have hne : ((-1 : Int) == (d : Int)) = false := by
    rw [beq_eq_false_iff_ne]
    omega
  simp [closes, hne]

theorem closes_self (d : Nat) (succeeded : Bool) : closes d [⟨d, succeeded⟩] = 1 := by
  simp [closes]

/-- Closing a `File` without a descriptor leaves everything as it is. -/
theorem close_neg (d : Nat) (isOpen : Bool) (descriptors : Finset Nat) :
    (File.close ⟨-1, isOpen⟩ descriptors).state = (⟨-1, isOpen⟩, descriptors) ∧
      closes d (File.close ⟨-1, isOpen⟩ descriptors).events = 0 := by
  rw [close_of_none (systemClose_neg descriptors)]
  exact ⟨rfl, closes_neg d false⟩

theorem destroy_neg (d : Nat) (isOpen : Bool) (descriptors : Finset Nat) :
    (File.destroy ⟨-1, isOpen⟩ descriptors).state = descriptors ∧
      closes d (File.destroy ⟨-1, isOpen⟩ descriptors).events = 0 := by
  obtain ⟨hstate, hcloses⟩ := close_neg d isOpen descriptors
  cases isOpen with
  | true => exact ⟨rfl, rfl⟩
  | false => exact ⟨congrArg Prod.snd hstate, hcloses⟩

/-! ## Calls on the `File` that holds the descriptor -/

/-- Closing it calls the system once, and it counts as closed: at once when the descriptor is open, or
because it has been before. -/
theorem close_holder {descriptors : Finset Nat} (hopen : isOpen = true → d ∈ descriptors) :
    (File.close ⟨d, isOpen⟩ descriptors).state.1 = ⟨d, false⟩ ∧
      closes d (File.close ⟨d, isOpen⟩ descriptors).events = 1 := by
  cases hsystem : systemClose d descriptors with
  | none =>
      have hclosed : isOpen = false := by
        by_contra htrue
        have hmem := hopen (by simpa using htrue)
        rw [systemClose, if_pos ⟨Int.natCast_nonneg d, hmem⟩] at hsystem
        cases hsystem
      rw [close_of_none hsystem, hclosed]
      exact ⟨rfl, closes_self d false⟩
  | some descriptors' =>
      rw [close_of_some hsystem]
      exact ⟨rfl, closes_self d true⟩

/-- Destroying it calls the system once if the flag is clear, and not at all if it is set. -/
theorem closes_destroy (d : Nat) (isOpen : Bool) (descriptors : Finset Nat) :
    closes d (File.destroy ⟨d, isOpen⟩ descriptors).events = if isOpen then 0 else 1 := by
  cases isOpen with
  | true => rfl
  | false => exact (@close_holder d false descriptors (by simp)).2

/-! ## One call -/

/-- The `File` that a call is made on. -/
def target : FileOp → Option Nat
  | .close i => some i
  | .setClosed i => some i
  | .moveConstruct i => some i
  | .moveAssign i _ => some i
  | .destroy i => some i
  | .opened _ => none

/-- A call that is made on no `File`, or on one that is not there, changes no `File`. -/
theorem step_missing {op : FileOp} (h : ∀ i, target op = some i → table.file? i = none) :
    (table.step op).state.files = table.files ∧
      table.descriptors ⊆ (table.step op).state.descriptors ∧ (table.step op).events = [] := by
  have hmissing (i : Nat) (hi : table.file? i = none)
      (call : File → Outcome FileTable CloseCall Exn) : table.onFile i call = .done table := by
    rw [onFile, hi]
  have hdone : table.step op = .done table ∨ ∃ fd, op = .opened fd := by
    cases op with
    | opened fd => exact .inr ⟨fd, rfl⟩
    | _ => exact .inl (hmissing _ (h _ rfl) _)
  rcases hdone with hdone | ⟨fd, rfl⟩
  · rw [hdone]
    exact ⟨rfl, Finset.Subset.refl _, rfl⟩
  · exact ⟨rfl, Finset.subset_insert fd table.descriptors, rfl⟩

/-- **What a call on a `File` without a descriptor does**: it makes no call that counts, closes no
descriptor, leaves the other `File`s as they are, and makes none with a descriptor. -/
structure Aside (d i : Nat) (table : FileTable) (o : Outcome FileTable CloseCall Exn) : Prop where
  closes : closes d o.events = 0
  descriptors : table.descriptors ⊆ o.state.descriptors
  others : ∀ j file, j ≠ i → table.file? j = some file → o.state.file? j = some file
  files : ∀ j file, o.state.file? j = some file →
    file.fd = -1 ∨ (j ≠ i ∧ table.file? j = some file)

theorem aside_put {o : Outcome FileTable CloseCall Exn} {new : Option File}
    {descriptors : Finset Nat} (hi : table.file? i = some file)
    (hnew : ∀ file', new = some file' → file'.fd = -1)
    (hstate : o.state = { table.put i new with descriptors })
    (hdescriptors : table.descriptors ⊆ descriptors) (hcloses : closes d o.events = 0) :
    Aside d i table o where
  closes := hcloses
  descriptors := by rwa [hstate]
  others := by
    intro j file' hji hj
    rw [hstate]
    exact (file?_put hi new j).trans ((if_neg hji).trans hj)
  files := by
    intro j file' hj
    rw [hstate] at hj
    have hput : (table.put i new).file? j = some file' := hj
    rw [file?_put hi] at hput
    split at hput
    · exact .inl (hnew file' hput)
    · next hji => exact .inr ⟨hji, hput⟩

theorem aside_move {o : Outcome FileTable CloseCall Exn} {moved : File × File}
    (hi : table.file? i = some file) (hfirst : moved.1.fd = -1) (hsecond : moved.2.fd = -1)
    (hdone : o = .done (table.move i moved)) : Aside d i table o where
  closes := by rw [hdone]; rfl
  descriptors := by rw [hdone]; exact Finset.Subset.refl _
  others := by
    intro j file' hji hj
    rw [hdone, Outcome.done_state, file?_move hi, if_neg hji, if_neg, hj]
    exact Nat.ne_of_lt (lt_of_file? hj)
  files := by
    intro j file' hj
    rw [hdone, Outcome.done_state, file?_move hi] at hj
    split at hj
    · cases hj
      exact .inl hsecond
    · next hji =>
      split at hj
      · cases hj
        exact .inl hfirst
      · exact .inr ⟨hji, hj⟩

theorem aside_step {op : FileOp} (htarget : target op = some i)
    (hi : table.file? i = some ⟨-1, isOpen⟩) : Aside d i table (table.step op) := by
  have hcall (call : File → Outcome FileTable CloseCall Exn) :
      table.onFile i call = call ⟨-1, isOpen⟩ := by
    rw [onFile, hi]
  cases op with
  | opened fd => cases htarget
  | close _ =>
      cases htarget
      obtain ⟨hstate, hcloses⟩ := close_neg d isOpen table.descriptors
      rw [step, hcall]
      refine aside_put hi ?_ rfl ?_ hcloses
      · rw [hstate]
        rintro file' ⟨⟩
        rfl
      · rw [hstate]
  | setClosed _ =>
      cases htarget
      rw [step, hcall]
      refine aside_put hi ?_ rfl (Finset.Subset.refl _) rfl
      rintro file' ⟨⟩
      rfl
  | moveConstruct _ =>
      cases htarget
      rw [step, hcall]
      exact aside_move hi rfl rfl rfl
  | moveAssign _ fd =>
      cases htarget
      rw [step, hcall]
      exact aside_move hi rfl rfl rfl
  | destroy _ =>
      cases htarget
      obtain ⟨hstate, hcloses⟩ := destroy_neg d isOpen table.descriptors
      rw [step, hcall]
      refine aside_put hi ?_ rfl ?_ hcloses
      · intro file' hfile'
        cases hfile'
      · rw [hstate]

/-- The `File`s of two tables are the same. -/
theorem file?_congr {table' : FileTable} (h : table'.files = table.files) (i : Nat) :
    table'.file? i = table.file? i := by
  rw [file?, file?, h]

/-- **A call on no `File`, or on one without a descriptor**, does not count and closes none. The other
`File`s are there as before, and any further one has no descriptor. -/
theorem step_aside {op : FileOp} (d : Nat)
    (hnone : ∀ i file, target op = some i → table.file? i = some file → file.fd = -1) :
    closes d (table.step op).events = 0 ∧
      table.descriptors ⊆ (table.step op).state.descriptors ∧
      (∀ j file, target op ≠ some j → table.file? j = some file →
        (table.step op).state.file? j = some file) ∧
      ∀ j file, (table.step op).state.file? j = some file →
        file.fd = -1 ∨ table.file? j = some file := by
  by_cases hmissing : ∀ i, target op = some i → table.file? i = none
  · obtain ⟨hfiles, hdescriptors, hevents⟩ := step_missing hmissing
    refine ⟨by rw [hevents]; rfl, hdescriptors, ?_, ?_⟩
    · intro j file _ hj
      rwa [file?_congr hfiles]
    · intro j file hj
      rw [file?_congr hfiles] at hj
      exact .inr hj
  · push Not at hmissing
    obtain ⟨i, htarget, hi⟩ := hmissing
    obtain ⟨⟨fd, isOpen⟩, hfile⟩ := Option.ne_none_iff_exists'.mp hi
    have hfd : fd = -1 := hnone i _ htarget hfile
    subst hfd
    have haside : Aside d i table (table.step op) := aside_step htarget hfile
    refine ⟨haside.closes, haside.descriptors, ?_, ?_⟩
    · intro j file hj hold
      refine haside.others j file ?_ hold
      rintro rfl
      exact hj htarget
    · intro j file hj
      exact (haside.files j file hj).imp_right And.right

/-! ### Calls beside the holder -/

/-- Once no `File` holds a descriptor, none ever will, and no call counts any more. -/
theorem Gone.step (hgone : table.Gone) (d : Nat) (op : FileOp) :
    (table.step op).state.Gone ∧ closes d (table.step op).events = 0 := by
  have hnone : ∀ i file, target op = some i → table.file? i = some file → file.fd = -1 :=
    fun i file _ => hgone i file
  obtain ⟨hcloses, -, -, hfiles⟩ := step_aside d hnone
  refine ⟨?_, hcloses⟩
  intro j file hj
  rcases hfiles j file hj with hnone | hold
  · exact hnone
  · exact hgone j file hold

theorem Gone.not_holds (hgone : table.Gone) (d i : Nat) : ¬ table.Holds d i := by
  rintro ⟨file, hfile, hfd⟩
  have hnone := hgone i file hfile
  omega

/-- Only the holder holds the descriptor. -/
theorem Holder.holds_iff (hholder : table.Holder d h isOpen) : table.Holds d i ↔ i = h := by
  constructor
  · rintro ⟨file, hfile, hfd⟩
    by_contra hne
    have hnone := hholder.2 i file hne hfile
    omega
  · rintro rfl
    exact ⟨_, hholder.1, rfl⟩

/-- **A call that is not made on the holder** leaves it as it is, and does not count. -/
theorem Holder.step_other (hholder : table.Holder d h isOpen) {op : FileOp}
    (hop : target op ≠ some h) :
    (table.step op).state.Holder d h isOpen ∧ closes d (table.step op).events = 0 ∧
      table.descriptors ⊆ (table.step op).state.descriptors := by
  have hnone : ∀ i file, target op = some i → table.file? i = some file → file.fd = -1 := by
    intro i file htarget
    refine hholder.2 i file ?_
    rintro rfl
    exact hop htarget
  obtain ⟨hcloses, hdescriptors, hothers, hfiles⟩ := step_aside d hnone
  refine ⟨⟨hothers h _ hop hholder.1, ?_⟩, hcloses, hdescriptors⟩
  intro j file hj hfile
  rcases hfiles j file hfile with hnone | hold
  · exact hnone
  · exact hholder.2 j file hj hold

/-- Put back with another flag, the holder is the holder still. -/
theorem Holder.put (hholder : table.Holder d h isOpen) (value : Bool) (descriptors : Finset Nat) :
    Holder d { table.put h (some ⟨d, value⟩) with descriptors } h value := by
  have hput (j : Nat) : file? { table.put h (some ⟨d, value⟩) with descriptors } j =
      if j = h then some ⟨d, value⟩ else table.file? j := file?_put hholder.1 _ j
  refine ⟨?_, ?_⟩
  · rw [hput, if_pos rfl]
  · intro j file hj hfile
    rw [hput, if_neg hj] at hfile
    exact hholder.2 j file hj hfile

/-- Moved from, it hands the descriptor and the flag to the new `File`. -/
theorem Holder.move (hholder : table.Holder d h isOpen) :
    (table.move h (⟨d, isOpen⟩, ⟨-1, false⟩)).Holder d table.files.length isOpen := by
  have hlt := lt_of_file? hholder.1
  refine ⟨?_, ?_⟩
  · rw [file?_move hholder.1, if_neg (Nat.ne_of_gt hlt), if_pos rfl]
  · intro j file hj hfile
    rw [file?_move hholder.1] at hfile
    split at hfile
    · cases hfile
      rfl
    · next hjh => exact hholder.2 j file hjh hfile

theorem Holder.gone (hholder : table.Holder d h isOpen) (descriptors : Finset Nat) :
    Gone { table.put h none with descriptors } := by
  intro j file hfile
  have hput : (table.put h none).file? j = some file := hfile
  rw [file?_put hholder.1] at hput
  split at hput
  · cases hput
  · next hj => exact hholder.2 j file hj hput

/-! ## The calls on the holder -/

theorem Holder.step_close (hholder : table.Holder d h isOpen)
    (hopen : isOpen = true → d ∈ table.descriptors) :
    (table.step (.close h)).state.Holder d h false ∧ closes d (table.step (.close h)).events = 1 := by
  obtain ⟨hstate, hcloses⟩ := close_holder hopen
  have hstep : table.step (.close h) =
      ⟨{ table.put h (some (File.close ⟨d, isOpen⟩ table.descriptors).state.1) with
          descriptors := (File.close ⟨d, isOpen⟩ table.descriptors).state.2 },
        (File.close ⟨d, isOpen⟩ table.descriptors).events,
        (File.close ⟨d, isOpen⟩ table.descriptors).fault⟩ := by
    rw [step, onFile, hholder.1]
  rw [hstep]
  refine ⟨?_, hcloses⟩
  rw [hstate]
  exact hholder.put false _

theorem Holder.step_setClosed (hholder : table.Holder d h isOpen) :
    (table.step (.setClosed h)).state.Holder d h false ∧
      closes d (table.step (.setClosed h)).events = 0 := by
  have hstep : table.step (.setClosed h) = .done (table.put h (some ⟨d, false⟩)) := by
    rw [step, onFile, hholder.1]
    rfl
  rw [hstep]
  exact ⟨hholder.put false table.descriptors, rfl⟩

theorem Holder.step_moveConstruct (hholder : table.Holder d h isOpen) :
    table.step (.moveConstruct h) = .done (table.move h (⟨d, isOpen⟩, ⟨-1, false⟩)) := by
  rw [step, onFile, hholder.1]
  rfl

theorem Holder.step_moveAssign (hholder : table.Holder d h isOpen) (fd : Int) :
    table.step (.moveAssign h fd) = .done (table.move h (⟨d, isOpen⟩, ⟨-1, false⟩)) := by
  rw [step, onFile, hholder.1]
  rfl

theorem Holder.step_destroy (hholder : table.Holder d h isOpen) :
    (table.step (.destroy h)).state.Gone ∧
      closes d (table.step (.destroy h)).events = if isOpen then 0 else 1 := by
  have hstep : table.step (.destroy h) =
      ⟨{ table.put h none with
          descriptors := (File.destroy ⟨d, isOpen⟩ table.descriptors).state },
        (File.destroy ⟨d, isOpen⟩ table.descriptors).events,
        (File.destroy ⟨d, isOpen⟩ table.descriptors).fault⟩ := by
    rw [step, onFile, hholder.1]
  rw [hstep]
  exact ⟨hholder.gone _, closes_destroy d isOpen table.descriptors⟩

/-- **What one call does with the holder.** It closes it, clears its flag, destroys it, or leaves the
descriptor with the same flag in it or in the `File` it is moved to. -/
theorem Holder.step_cases (hholder : table.Holder d h isOpen)
    (hopen : isOpen = true → d ∈ table.descriptors) (op : FileOp) :
    (op = .close h ∧ (table.step op).state.Holder d h false ∧
      closes d (table.step op).events = 1) ∨
    (op = .setClosed h ∧ (table.step op).state.Holder d h false ∧
      closes d (table.step op).events = 0) ∨
    (op = .destroy h ∧ (table.step op).state.Gone ∧
      closes d (table.step op).events = if isOpen then 0 else 1) ∨
    (¬ table.ClosesHolder d op ∧ ¬ table.ClearsHolder d op ∧
      (∃ h', (table.step op).state.Holder d h' isOpen) ∧
      (isOpen = true → d ∈ (table.step op).state.descriptors) ∧
      closes d (table.step op).events = 0) := by
  by_cases htarget : target op = some h
  · cases op with
    | close i =>
        cases htarget
        exact .inl ⟨rfl, hholder.step_close hopen⟩
    | setClosed i =>
        cases htarget
        exact .inr (.inl ⟨rfl, hholder.step_setClosed⟩)
    | moveConstruct i =>
        cases htarget
        rw [hholder.step_moveConstruct]
        exact .inr (.inr (.inr ⟨id, id, ⟨_, hholder.move⟩, hopen, rfl⟩))
    | moveAssign i fd =>
        cases htarget
        rw [hholder.step_moveAssign]
        exact .inr (.inr (.inr ⟨id, id, ⟨_, hholder.move⟩, hopen, rfl⟩))
    | destroy i =>
        cases htarget
        exact .inr (.inr (.inl ⟨rfl, hholder.step_destroy⟩))
    | opened fd => cases htarget
  · obtain ⟨hholder', hcloses, hdescriptors⟩ := hholder.step_other htarget
    refine .inr (.inr (.inr ⟨?_, ?_, ⟨h, hholder'⟩, fun htrue => hdescriptors (hopen htrue), hcloses⟩))
    · intro hclose
      cases op with
      | close i => exact htarget (congrArg some (hholder.holds_iff.mp hclose))
      | _ => exact hclose
    · intro hclear
      cases op with
      | setClosed i => exact htarget (congrArg some (hholder.holds_iff.mp hclear))
      | _ => exact hclear

/-! ## Runs -/

/-- The table after a call, with the exception of the call caught. -/
def next (table : FileTable) (op : FileOp) : FileTable := (table.step op).state

theorem closes_cons (d : Nat) (table : FileTable) (op : FileOp) (ops : List FileOp) :
    closes d (Outcome.runEvents step table (op :: ops)) =
      closes d (table.step op).events +
        closes d (Outcome.runEvents step (table.step op).state ops) :=
  closes_append d _ _

/-- When no `File` holds the descriptor, no call of the run concerns it. -/
theorem gone_run (hgone : table.Gone) (d : Nat) (ops : List FileOp) :
    closes d (Outcome.runEvents step table ops) = 0 ∧
      Run.Meets next (fun table op => ¬ table.ClosesHolder d op) table ops ∧
      ¬ Run.Sometime next (fun table op => table.ClearsHolder d op) table ops := by
  induction ops generalizing table with
  | nil =>
      refine ⟨rfl, Run.meets_nil _ _ _, ?_⟩
      rw [Run.not_sometime]
      exact Run.meets_nil _ _ _
  | cons op ops ih =>
      obtain ⟨hgone', hcloses⟩ := hgone.step d op
      obtain ⟨hrest, hmeets, hnever⟩ := ih hgone'
      refine ⟨by rw [closes_cons, hcloses, hrest], ?_, ?_⟩
      · rw [Run.meets_cons]
        refine ⟨fun hclose => ?_, hmeets⟩
        cases op with
        | close i => exact hgone.not_holds d i hclose
        | _ => exact hclose
      · rw [Run.sometime_cons, not_or]
        refine ⟨fun hclear => ?_, hnever⟩
        cases op with
        | setClosed i => exact hgone.not_holds d i hclear
        | _ => exact hclear

/-- With its flag clear the descriptor is closed when the `File` goes, once if it has not been closed
on the way. -/
theorem down_run (hholder : table.Holder d h false) (ops : List FileOp)
    (hdestroyed : (ops.foldl next table).AllDestroyed) :
    1 ≤ closes d (Outcome.runEvents step table ops) ∧
      (closes d (Outcome.runEvents step table ops) = 1 ↔
        Run.Meets next (fun table op => ¬ table.ClosesHolder d op) table ops) := by
  induction ops generalizing table h with
  | nil =>
      have hnone := hdestroyed.file? h
      rw [List.foldl_nil, hholder.1] at hnone
      cases hnone
  | cons op ops ih =>
      rw [List.foldl_cons] at hdestroyed
      rw [closes_cons, Run.meets_cons]
      rcases hholder.step_cases (by simp) op with ⟨rfl, hnext, hcloses⟩ | ⟨rfl, hnext, hcloses⟩ |
        ⟨rfl, hgone, hcloses⟩ | ⟨hclose, -, ⟨h', hnext⟩, -, hcloses⟩
      · -- Closed once now, it will be closed again.
        obtain ⟨hpos, -⟩ := ih hnext hdestroyed
        rw [hcloses]
        refine ⟨Nat.le_add_right 1 _, fun hone => absurd hone (by omega), fun h => ?_⟩
        exact absurd (hholder.holds_iff.mpr rfl) h.1
      · obtain ⟨hpos, hiff⟩ := ih hnext hdestroyed
        rw [hcloses, Nat.zero_add]
        exact ⟨hpos, hiff.trans (and_iff_right id).symm⟩
      · obtain ⟨hnever, hmeets, -⟩ := gone_run hgone d ops
        rw [hcloses, if_neg (by simp)]
        refine ⟨Nat.le_add_right 1 _, fun _ => ⟨id, hmeets⟩, fun _ => ?_⟩
        exact congrArg (1 + ·) hnever
      · obtain ⟨hpos, hiff⟩ := ih hnext hdestroyed
        rw [hcloses, Nat.zero_add]
        exact ⟨hpos, hiff.trans (and_iff_right hclose).symm⟩

/-- With its flag set and the descriptor open it is closed once when the flag is cleared by
`is_open(false)` and not by `close()`. -/
theorem up_run (hholder : table.Holder d h true) (hopen : d ∈ table.descriptors)
    (ops : List FileOp) (hdestroyed : (ops.foldl next table).AllDestroyed) :
    closes d (Outcome.runEvents step table ops) = 1 ↔
      Run.Meets next (fun table op => ¬ table.ClosesHolder d op) table ops ∧
        Run.Sometime next (fun table op => table.ClearsHolder d op) table ops := by
  induction ops generalizing table h with
  | nil =>
      have hnone := hdestroyed.file? h
      rw [List.foldl_nil, hholder.1] at hnone
      cases hnone
  | cons op ops ih =>
      rw [List.foldl_cons] at hdestroyed
      rw [closes_cons, Run.meets_cons, Run.sometime_cons]
      rcases hholder.step_cases (fun _ => hopen) op with ⟨rfl, hnext, hcloses⟩ |
        ⟨rfl, hnext, hcloses⟩ | ⟨rfl, hgone, hcloses⟩ |
        ⟨hclose, hclear, ⟨h', hnext⟩, hopen', hcloses⟩
      · obtain ⟨hpos, -⟩ := down_run hnext ops hdestroyed
        rw [hcloses]
        refine ⟨fun hone => absurd hone (by omega), fun h => ?_⟩
        exact absurd (hholder.holds_iff.mpr rfl) h.1.1
      · obtain ⟨-, hiff⟩ := down_run hnext ops hdestroyed
        rw [hcloses, Nat.zero_add]
        refine hiff.trans ⟨fun hmeets => ⟨⟨id, hmeets⟩, .inl (hholder.holds_iff.mpr rfl)⟩, ?_⟩
        exact fun h => h.1.2
      · -- Destroyed while it is open, the descriptor is never closed.
        obtain ⟨hnever, -, hno⟩ := gone_run hgone d ops
        rw [hcloses, if_pos rfl, Nat.zero_add]
        refine ⟨fun hone => ?_, fun h => ?_⟩
        · have hzero := hnever.symm.trans hone
          cases hzero
        · rcases h.2 with hclear | hlater
          · exact hclear.elim
          · exact absurd hlater hno
      · rw [hcloses, Nat.zero_add]
        refine (ih hnext (hopen' rfl) hdestroyed).trans ?_
        rw [and_iff_right hclose, or_iff_right hclear]
        rfl

theorem holder_new (d : Nat) (descriptors : Finset Nat) : (new d descriptors).Holder d 0 true := by
  refine ⟨rfl, ?_⟩
  intro i file hi hfile
  have hlt := lt_of_file? hfile
  have hzero : i = 0 := by
    simp only [new, List.length_singleton] at hlt
    omega
  exact absurd hzero hi

/-! ## When the descriptor is closed once -/

/-- **When a descriptor is closed exactly once.** A `File` is made for an open descriptor; it is closed,
has its flag cleared, is moved to other `File`s, in any order, while the system gives out descriptors,
and in the end every `File` is destroyed. Then `::close` has been called for the descriptor exactly once
if and only if `close()` was never called on the `File` that held it and `is_open(false)` was. -/
theorem closed_once_iff (d : Nat) (descriptors : Finset Nat) (hvalid : d ∈ descriptors)
    (ops : List FileOp) (hdestroyed : (ops.foldl next (new d descriptors)).AllDestroyed) :
    closes d (Outcome.runEvents step (new d descriptors) ops) = 1 ↔
      Run.Meets next (fun table op => ¬ table.ClosesHolder d op) (new d descriptors) ops ∧
        Run.Sometime next (fun table op => table.ClearsHolder d op) (new d descriptors) ops :=
  up_run (holder_new d descriptors) hvalid ops hdestroyed

theorem closed_once_iff_moved :
    closes 4 (Outcome.runEvents step (new 4 {4})
        [.setClosed 0, .moveConstruct 0, .destroy 0, .destroy 1]) = 1 ↔
      Run.Meets next (fun table op => ¬ table.ClosesHolder 4 op) (new 4 {4})
          [.setClosed 0, .moveConstruct 0, .destroy 0, .destroy 1] ∧
        Run.Sometime next (fun table op => table.ClearsHolder 4 op) (new 4 {4})
          [.setClosed 0, .moveConstruct 0, .destroy 0, .destroy 1] :=
  closed_once_iff 4 {4} (by decide) [.setClosed 0, .moveConstruct 0, .destroy 0, .destroy 1]
    (by decide)

/-- Closed explicitly, a `File` closes the descriptor again when it goes, which by then may be somebody
else's; destroyed while it is open it leaves the descriptor behind. -/
theorem closed_twice_or_never :
    (Outcome.runEvents step (new 4 {4}) [.close 0, .opened 4, .destroy 0] =
        [⟨4, true⟩, ⟨4, true⟩] ∧
      ([.close 0, .opened 4, .destroy 0].foldl next (new 4 {4})).AllDestroyed ∧
      ([.close 0, .opened 4, .destroy 0].foldl next (new 4 {4})).descriptors = ∅) ∧
    (Outcome.runEvents step (new 4 {4}) [.destroy 0] = [] ∧
      ([.destroy 0].foldl next (new 4 {4})).AllDestroyed ∧
      ([.destroy 0].foldl next (new 4 {4})).descriptors = {4}) := by
  decide

end FileTable

end SquawkBus.Io
