import SquawkBus.Io.Endpoint
import SquawkBus.Library.CommandLine

/-!
# The command line of the server

`Options::parse`. A command line is read if it is made of the arguments of the usage text, none but
`--authorization` given twice, and the options are then what the arguments say (`server_parse_iff`).
-/

namespace SquawkBus.Server

open SquawkBus.Io

/-! ## Options -/

variable {ρ : Type} [RegexEngine ρ]

structure TLSOptions where
  certfile : Bytes
  keyfile : Bytes

structure Options (ρ : Type) [RegexEngine ρ] where
  endpoint : Endpoint
  tls : Option TLSOptions
  authorizations : List (AuthorizationSpec ρ)
  authorizationsFile : Option Bytes
  passwordFile : Option Bytes

/-- The ways `Options::parse` ends other than by returning. -/
inductive Stop where
  /-- `exit(0)`, when the usage text has been printed. -/
  | exited
  | thrown (e : Exn)
  deriving DecidableEq

namespace Options

/-- `Options {}`. -/
def blank : Options ρ := ⟨.blank, none, [], none, none⟩

def defaultPort : UInt16 := 8558

/-- The options that take one argument. -/
def valueNames : List Bytes :=
  [ascii "--endpoint", ascii "--authorizations-file", ascii "--password-file", ascii "--authorization"]

/-- The options there are. -/
def names : List Bytes := ascii "--help" :: ascii "--tls" :: valueNames

/-- An argument in a message. -/
def quote (arg : Bytes) : String := String.ofList (arg.map fun c => Char.ofNat c.toNat)

/-! ## Parsing -/

/-- An option that takes an argument, and may not have been given before. -/
def takeValue (arg : Bytes) (given : Bool) (set : Bytes → Except Exn (Options ρ)) :
    List Bytes → Except Stop (Options ρ × List Bytes) :=
  CommandLine.takeValue given (.thrown (.runtimeError ("duplicate argument " ++ quote arg)))
    (.thrown (.runtimeError (quote arg ++ " requires an argument")))
    fun value => (set value).mapError .thrown

/-- A round of the loop of `parse`. -/
def parseArgument (options : Options ρ) (arg : Bytes) (args : List Bytes) :
    Except Stop (Options ρ × List Bytes) :=
  if arg = ascii "--help" then .error .exited
  else if arg = ascii "--endpoint" then
    takeValue arg (!options.endpoint.isEmpty) (fun text => do
      let endpoint ← Endpoint.parse text
      .ok { options with endpoint }) args
  else if arg = ascii "--tls" then
    if options.tls.isSome then
      .error (.thrown (.runtimeError ("duplicate argument " ++ quote arg)))
    else
      match args with
      | certfile :: keyfile :: args => .ok ({ options with tls := some ⟨certfile, keyfile⟩ }, args)
      | _ => .error (.thrown (.runtimeError (quote arg ++ " requires two arguments")))
  else if arg = ascii "--authorizations-file" then
    takeValue arg options.authorizationsFile.isSome
      (fun file => .ok { options with authorizationsFile := some file }) args
  else if arg = ascii "--password-file" then
    takeValue arg options.passwordFile.isSome
      (fun file => .ok { options with passwordFile := some file }) args
  else if arg = ascii "--authorization" then
    takeValue arg false (fun line => do
      let spec ← AuthorizationSpec.fromLine line
      .ok { options with authorizations := options.authorizations ++ [spec] }) args
  else .error (.thrown (.runtimeError ("invalid argument \"" ++ quote arg ++ "\"")))

def withDefault (options : Options ρ) : Options ρ :=
  if options.endpoint.isEmpty then { options with endpoint := ⟨ascii "0.0.0.0", defaultPort⟩ }
  else options

/-- `parse`, of the arguments behind the name of the program. -/
def parse (args : List Bytes) : Except Stop (Options ρ) := do
  let options ← CommandLine.parse parseArgument blank args
  .ok options.withDefault

end Options

/-! ## The usage text -/

/-- An option of the usage text, with values that can be read. -/
inductive Argument (ρ : Type) [RegexEngine ρ] where
  | endpoint (text : Bytes) (given : Endpoint) (htext : Endpoint.parse text = .ok given)
  | tls (given : TLSOptions)
  | authorizationsFile (file : Bytes)
  | passwordFile (file : Bytes)
  | authorization (line : Bytes) (spec : AuthorizationSpec ρ)
      (hline : AuthorizationSpec.fromLine line = .ok spec)

namespace Argument

/-- What is written for it. -/
def words : Argument ρ → List Bytes
  | endpoint text _ _ => [ascii "--endpoint", text]
  | tls given => [ascii "--tls", given.certfile, given.keyfile]
  | authorizationsFile file => [ascii "--authorizations-file", file]
  | passwordFile file => [ascii "--password-file", file]
  | authorization line _ _ => [ascii "--authorization", line]

/-- The first of its words. -/
@[simp] def name : Argument ρ → Bytes
  | endpoint _ _ _ => ascii "--endpoint"
  | tls _ => ascii "--tls"
  | authorizationsFile _ => ascii "--authorizations-file"
  | passwordFile _ => ascii "--password-file"
  | authorization _ _ _ => ascii "--authorization"

@[simp] def endpoint? : Argument ρ → Option Endpoint
  | endpoint _ given _ => some given
  | _ => none

@[simp] def tls? : Argument ρ → Option TLSOptions
  | tls given => some given
  | _ => none

@[simp] def authorizationsFile? : Argument ρ → Option Bytes
  | authorizationsFile file => some file
  | _ => none

@[simp] def passwordFile? : Argument ρ → Option Bytes
  | passwordFile file => some file
  | _ => none

@[simp] def authorization? : Argument ρ → Option (AuthorizationSpec ρ)
  | authorization _ spec _ => some spec
  | _ => none

end Argument

/-- **The arguments say what the options are**: no option but `--authorization` is given twice, what is
given is in the options, and what is not is left at its default. -/
structure Options.SaidBy (options : Options ρ) (arguments : List (Argument ρ)) : Prop where
  endpoint : ∃ given : Option Endpoint, arguments.filterMap Argument.endpoint? = given.toList ∧
    options.endpoint = given.getD ⟨ascii "0.0.0.0", defaultPort⟩
  tls : arguments.filterMap Argument.tls? = options.tls.toList
  authorizationsFile :
    arguments.filterMap Argument.authorizationsFile? = options.authorizationsFile.toList
  passwordFile : arguments.filterMap Argument.passwordFile? = options.passwordFile.toList
  authorizations : arguments.filterMap Argument.authorization? = options.authorizations

/-- The option may be given behind the arguments: it is not among them, or may be given again. -/
def IsNew (arguments : List (Argument ρ)) (arg : Bytes) : Prop :=
  arg = ascii "--authorization" ∨ arg ∉ arguments.map Argument.name

/-- The value of the option cannot be read. -/
def Unreadable (ρ : Type) [RegexEngine ρ] (arg text : Bytes) (e : Exn) : Prop :=
  arg = ascii "--endpoint" ∧ Endpoint.parse text = .error e ∨
    arg = ascii "--authorization" ∧
      (AuthorizationSpec.fromLine text : Except Exn (AuthorizationSpec ρ)) = .error e

/-- **What is refused**, behind arguments that are not: a word that names no option, an option that is
given again, one without its values, and one with a value that cannot be read. -/
inductive Refused (arguments : List (Argument ρ)) : Bytes → List Bytes → Exn → Prop
  | unknown {arg : Bytes} {rest : List Bytes} (harg : arg ∉ Options.names) :
      Refused arguments arg rest
        (.runtimeError ("invalid argument \"" ++ Options.quote arg ++ "\""))
  | duplicate {arg : Bytes} {rest : List Bytes} (hgiven : ¬ IsNew arguments arg) :
      Refused arguments arg rest (.runtimeError ("duplicate argument " ++ Options.quote arg))
  | noValue {arg : Bytes} (harg : arg ∈ Options.valueNames) (hnew : IsNew arguments arg) :
      Refused arguments arg [] (.runtimeError (Options.quote arg ++ " requires an argument"))
  | noValues {rest : List Bytes} (hnew : IsNew arguments (ascii "--tls")) (hrest : rest.length < 2) :
      Refused arguments (ascii "--tls") rest
        (.runtimeError (Options.quote (ascii "--tls") ++ " requires two arguments"))
  | unreadable {arg text : Bytes} {rest : List Bytes} {e : Exn} (hnew : IsNew arguments arg)
      (htext : Unreadable ρ arg text e) : Refused arguments arg (text :: rest) e

/-- **What is made of a command line.** -/
inductive Reads (args : List Bytes) : Except Stop (Options ρ) → Prop
  | options {arguments : List (Argument ρ)} {options : Options ρ}
      (hargs : args = arguments.flatMap Argument.words) (hsaid : options.SaidBy arguments) :
      Reads args (.ok options)
  | help {arguments : List (Argument ρ)} {options : Options ρ} {rest : List Bytes}
      (hargs : args = arguments.flatMap Argument.words ++ ascii "--help" :: rest)
      (hsaid : options.SaidBy arguments) : Reads args (.error .exited)
  | refused {arguments : List (Argument ρ)} {options : Options ρ} {arg : Bytes} {rest : List Bytes}
      {e : Exn} (hargs : args = arguments.flatMap Argument.words ++ arg :: rest)
      (hsaid : options.SaidBy arguments) (hrefused : Refused arguments arg rest e) :
      Reads args (.error (.thrown e))

/-! ## The loop -/

namespace Options

/-- Whether the option has been given, where it may not be given again. -/
@[simp] def has (options : Options ρ) : Argument ρ → Bool
  | .endpoint _ _ _ => !options.endpoint.isEmpty
  | .tls _ => options.tls.isSome
  | .authorizationsFile _ => options.authorizationsFile.isSome
  | .passwordFile _ => options.passwordFile.isSome
  | .authorization _ _ _ => false

@[simp] def set (options : Options ρ) : Argument ρ → Options ρ
  | .endpoint _ given _ => { options with endpoint := given }
  | .tls given => { options with tls := some given }
  | .authorizationsFile file => { options with authorizationsFile := some file }
  | .passwordFile file => { options with passwordFile := some file }
  | .authorization _ spec _ => { options with authorizations := options.authorizations ++ [spec] }

/-- What an argument makes of the options, where it may be given. -/
def apply (options : Options ρ) (argument : Argument ρ) : Option (Options ρ) :=
  if options.has argument then none else some (options.set argument)

theorem apply_eq_some_iff {options options' : Options ρ} {argument : Argument ρ} :
    options.apply argument = some options' ↔
      options.has argument = false ∧ options.set argument = options' := by
  unfold apply
  cases options.has argument <;> simp

theorem mapError_eq_ok_iff {β : Type} {x : Except Exn β} {b : β} :
    x.mapError Stop.thrown = .ok b ↔ x = .ok b := by
  cases x <;> simp [Except.mapError]

theorem mapError_eq_error_iff {β : Type} {x : Except Exn β} {stop : Stop} :
    x.mapError Stop.thrown = .error stop ↔ ∃ e, x = .error e ∧ stop = .thrown e := by
  cases x <;> simp [Except.mapError, eq_comm]

theorem takeValue_eq_ok_iff {arg : Bytes} {given : Bool} {set : Bytes → Except Exn (Options ρ)}
    {args rest : List Bytes} {options : Options ρ} :
    takeValue arg given set args = .ok (options, rest) ↔
      given = false ∧ ∃ value, args = value :: rest ∧ set value = .ok options := by
  simp only [takeValue, CommandLine.takeValue_eq_ok_iff, mapError_eq_ok_iff]

theorem takeValue_ne_exited {arg : Bytes} {given : Bool} {set : Bytes → Except Exn (Options ρ)}
    {args : List Bytes} : takeValue arg given set args ≠ .error .exited := by
  intro h
  simp [takeValue, CommandLine.takeValue_eq_error_iff, mapError_eq_error_iff] at h

/-! ## A round -/

theorem parseArgument_endpoint (options : Options ρ) (args : List Bytes) :
    options.parseArgument (ascii "--endpoint") args =
      takeValue (ascii "--endpoint") (!options.endpoint.isEmpty) (fun text => do
        let endpoint ← Endpoint.parse text
        .ok { options with endpoint }) args := rfl

theorem parseArgument_tls (options : Options ρ) (args : List Bytes) :
    options.parseArgument (ascii "--tls") args =
      if options.tls.isSome then
        .error (.thrown (.runtimeError ("duplicate argument " ++ quote (ascii "--tls"))))
      else
        match args with
        | certfile :: keyfile :: args => .ok ({ options with tls := some ⟨certfile, keyfile⟩ }, args)
        | _ => .error (.thrown (.runtimeError (quote (ascii "--tls") ++ " requires two arguments"))) :=
  rfl

theorem parseArgument_authorizationsFile (options : Options ρ) (args : List Bytes) :
    options.parseArgument (ascii "--authorizations-file") args =
      takeValue (ascii "--authorizations-file") options.authorizationsFile.isSome
        (fun file => .ok { options with authorizationsFile := some file }) args := rfl

theorem parseArgument_passwordFile (options : Options ρ) (args : List Bytes) :
    options.parseArgument (ascii "--password-file") args =
      takeValue (ascii "--password-file") options.passwordFile.isSome
        (fun file => .ok { options with passwordFile := some file }) args := rfl

theorem parseArgument_authorization (options : Options ρ) (args : List Bytes) :
    options.parseArgument (ascii "--authorization") args =
      takeValue (ascii "--authorization") false (fun line => do
        let spec ← AuthorizationSpec.fromLine line
        .ok { options with authorizations := options.authorizations ++ [spec] }) args := rfl

theorem mem_names_iff {arg : Bytes} : arg ∈ names ↔ arg = ascii "--help" ∨ arg = ascii "--tls" ∨
    arg = ascii "--endpoint" ∨ arg = ascii "--authorizations-file" ∨ arg = ascii "--password-file" ∨
    arg = ascii "--authorization" := by
  simp [names, valueNames]

theorem parseArgument_of_unknown {arg : Bytes} (harg : arg ∉ names) (options : Options ρ)
    (args : List Bytes) : options.parseArgument arg args =
      .error (.thrown (.runtimeError ("invalid argument \"" ++ quote arg ++ "\""))) := by
  simp only [mem_names_iff, not_or] at harg
  unfold parseArgument
  simp only [harg, if_false]

/-- A round takes one argument of the usage text. -/
theorem takes_parseArgument :
    CommandLine.Takes (parseArgument (ρ := ρ)) Argument.words apply := by
  refine ⟨fun argument => by cases argument <;> exact List.cons_ne_nil _ _, ?_⟩
  intro options arg args options' rest
  simp only [apply_eq_some_iff]
  constructor
  · intro h
    by_cases harg : arg ∈ names
    · rcases mem_names_iff.mp harg with rfl | rfl | rfl | rfl | rfl | rfl
      · cases h
      · rw [parseArgument_tls] at h
        split_ifs at h with hgiven
        split at h
        · obtain ⟨rfl, rfl⟩ := Prod.mk.inj (Except.ok.inj h)
          exact ⟨.tls ⟨_, _⟩, rfl, Bool.eq_false_of_not_eq_true hgiven, rfl⟩
        · cases h
      · rw [parseArgument_endpoint] at h
        obtain ⟨hgiven, text, rfl, hset⟩ := takeValue_eq_ok_iff.mp h
        obtain ⟨endpoint, htext, hoptions⟩ := Except.bind_eq_ok.mp hset
        exact ⟨.endpoint text endpoint htext, rfl, hgiven, Except.ok.inj hoptions⟩
      · rw [parseArgument_authorizationsFile] at h
        obtain ⟨hgiven, file, rfl, hset⟩ := takeValue_eq_ok_iff.mp h
        exact ⟨.authorizationsFile file, rfl, hgiven, Except.ok.inj hset⟩
      · rw [parseArgument_passwordFile] at h
        obtain ⟨hgiven, file, rfl, hset⟩ := takeValue_eq_ok_iff.mp h
        exact ⟨.passwordFile file, rfl, hgiven, Except.ok.inj hset⟩
      · rw [parseArgument_authorization] at h
        obtain ⟨-, line, rfl, hset⟩ := takeValue_eq_ok_iff.mp h
        obtain ⟨spec, hline, hoptions⟩ := Except.bind_eq_ok.mp hset
        exact ⟨.authorization line spec hline, rfl, rfl, Except.ok.inj hoptions⟩
    · rw [parseArgument_of_unknown harg] at h
      cases h
  · rintro ⟨argument, hargs, hgiven, rfl⟩
    cases argument with
    | endpoint text given htext =>
        obtain ⟨rfl, rfl⟩ := List.cons.inj hargs
        rw [parseArgument_endpoint]
        exact takeValue_eq_ok_iff.mpr ⟨hgiven, text, rfl, Except.bind_eq_ok.mpr ⟨given, htext, rfl⟩⟩
    | tls given =>
        obtain ⟨rfl, rfl⟩ := List.cons.inj hargs
        have hfirst : options.tls.isSome = false := hgiven
        rw [parseArgument_tls, hfirst]
        rfl
    | authorizationsFile file =>
        obtain ⟨rfl, rfl⟩ := List.cons.inj hargs
        rw [parseArgument_authorizationsFile]
        exact takeValue_eq_ok_iff.mpr ⟨hgiven, file, rfl, rfl⟩
    | passwordFile file =>
        obtain ⟨rfl, rfl⟩ := List.cons.inj hargs
        rw [parseArgument_passwordFile]
        exact takeValue_eq_ok_iff.mpr ⟨hgiven, file, rfl, rfl⟩
    | authorization line spec hline =>
        obtain ⟨rfl, rfl⟩ := List.cons.inj hargs
        rw [parseArgument_authorization]
        exact takeValue_eq_ok_iff.mpr ⟨rfl, line, rfl, Except.bind_eq_ok.mpr ⟨spec, hline, rfl⟩⟩

theorem parseArgument_eq_exited_iff {options : Options ρ} {arg : Bytes} {args : List Bytes} :
    options.parseArgument arg args = .error .exited ↔ arg = ascii "--help" := by
  constructor
  · intro h
    by_cases harg : arg ∈ names
    · rcases mem_names_iff.mp harg with rfl | rfl | rfl | rfl | rfl | rfl
      · rfl
      · rw [parseArgument_tls] at h
        split at h
        · cases h
        · split at h <;> cases h
      · exact absurd (parseArgument_endpoint options args ▸ h) takeValue_ne_exited
      · exact absurd (parseArgument_authorizationsFile options args ▸ h) takeValue_ne_exited
      · exact absurd (parseArgument_passwordFile options args ▸ h) takeValue_ne_exited
      · exact absurd (parseArgument_authorization options args ▸ h) takeValue_ne_exited
    · rw [parseArgument_of_unknown harg] at h
      cases h
  · rintro rfl
    rfl

/-! ## What the options are -/

/-- An endpoint that has been given. -/
def given? (endpoint : Endpoint) : Option Endpoint :=
  if endpoint.isEmpty then none else some endpoint

/-- The arguments lead from these options to those. -/
@[mk_iff]
structure Adds (options : Options ρ) (arguments : List (Argument ρ)) (options' : Options ρ) :
    Prop where
  endpoint : (given? options.endpoint).toList ++ arguments.filterMap Argument.endpoint? =
    (given? options'.endpoint).toList
  tls : options.tls.toList ++ arguments.filterMap Argument.tls? = options'.tls.toList
  authorizationsFile : options.authorizationsFile.toList ++
    arguments.filterMap Argument.authorizationsFile? = options'.authorizationsFile.toList
  passwordFile : options.passwordFile.toList ++ arguments.filterMap Argument.passwordFile? =
    options'.passwordFile.toList
  authorizations : options.authorizations ++ arguments.filterMap Argument.authorization? =
    options'.authorizations

theorem given?_eq_none_iff {endpoint : Endpoint} :
    given? endpoint = none ↔ endpoint.isEmpty = true := by
  unfold given?
  split <;> simp_all

theorem given?_injective : Function.Injective given? := by
  intro endpoint endpoint' h
  unfold given? at h
  split at h <;> split at h
  · next hempty hempty' =>
    rw [Endpoint.isEmpty_iff.mp hempty, Endpoint.isEmpty_iff.mp hempty']
  · cases h
  · cases h
  · exact Option.some.inj h

theorem given?_of_parse {text : Bytes} {endpoint : Endpoint}
    (h : Endpoint.parse text = .ok endpoint) : given? endpoint = some endpoint := by
  obtain ⟨-, -, -, hport, -⟩ := Endpoint.parse_eq_ok_iff.mp h
  refine if_neg fun hempty => hport ?_
  rw [Endpoint.isEmpty_iff.mp hempty]
  rfl

theorem adds_nil_iff {options options' : Options ρ} :
    options.Adds [] options' ↔ options = options' := by
  simp only [adds_iff, List.filterMap_nil, List.append_nil,
    (CommandLine.toList_injective).eq_iff, given?_injective.eq_iff]
  cases options
  cases options'
  simp only [mk.injEq]
  tauto

/-- One argument, and then the others. -/
theorem adds_cons_iff {options options' : Options ρ} {argument : Argument ρ}
    {arguments : List (Argument ρ)} : options.Adds (argument :: arguments) options' ↔
      options.has argument = false ∧ (options.set argument).Adds arguments options' := by
  cases argument with
  | endpoint text given htext =>
      simp [adds_iff, List.filterMap_cons, CommandLine.toList_append_cons, given?_eq_none_iff,
        given?_of_parse htext]
      tauto
  | tls given =>
      simp [adds_iff, List.filterMap_cons, CommandLine.toList_append_cons]
      tauto
  | authorizationsFile file =>
      simp [adds_iff, List.filterMap_cons, CommandLine.toList_append_cons]
      tauto
  | passwordFile file =>
      simp [adds_iff, List.filterMap_cons, CommandLine.toList_append_cons]
      tauto
  | authorization line spec hline => simp [adds_iff, List.filterMap_cons]

theorem foldlM_apply_iff {options options' : Options ρ} {arguments : List (Argument ρ)} :
    arguments.foldlM apply options = some options' ↔ options.Adds arguments options' := by
  induction arguments generalizing options with
  | nil => exact Option.some_inj.trans adds_nil_iff.symm
  | cons argument arguments ih =>
      rw [List.foldlM_cons, Option.bind_eq_bind, Option.bind_eq_some_iff, adds_cons_iff]
      simp only [apply_eq_some_iff, ih, and_assoc, exists_and_left, exists_eq_left']

/-! ## The result -/

/-- The endpoint of an argument counts as given. -/
theorem given?_of_mem {arguments : List (Argument ρ)} {given : Endpoint}
    (h : given ∈ arguments.filterMap Argument.endpoint?) : given? given = some given := by
  obtain ⟨argument, -, hargument⟩ := List.mem_filterMap.mp h
  cases argument with
  | endpoint text given' htext =>
      obtain rfl := Option.some.inj hargument
      exact given?_of_parse htext
  | _ => cases hargument

theorem withDefault_eq (options : Options ρ) : options.withDefault =
    { options with
      endpoint := (given? options.endpoint).getD ⟨ascii "0.0.0.0", defaultPort⟩ } := by
  unfold withDefault given?
  split <;> rfl

/-- The options are those the arguments lead to, and their endpoint the default if they have none. -/
theorem saidBy_iff {arguments : List (Argument ρ)} {options : Options ρ} :
    options.SaidBy arguments ↔
      ∃ options', blank.Adds arguments options' ∧ options'.withDefault = options := by
  constructor
  · intro h
    obtain ⟨given, hgiven, hendpoint⟩ := h.endpoint
    have hback : given? (given.getD .blank) = given := by
      cases given with
      | none => rfl
      | some given =>
          have hmem : given ∈ arguments.filterMap Argument.endpoint? := by
            rw [hgiven]
            exact List.mem_singleton_self given
          exact given?_of_mem hmem
    refine ⟨{ options with endpoint := given.getD .blank }, ⟨?_, h.tls, h.authorizationsFile,
      h.passwordFile, h.authorizations⟩, ?_⟩
    · show _ = (given? (given.getD .blank)).toList
      rw [hback, ← hgiven]
      rfl
    · rw [withDefault_eq, hback, ← hendpoint]
  · rintro ⟨options', hadds, rfl⟩
    rw [withDefault_eq]
    exact ⟨⟨given? options'.endpoint, hadds.endpoint, rfl⟩, hadds.tls, hadds.authorizationsFile,
      hadds.passwordFile, hadds.authorizations⟩

/-- An option that is kept has been given when one of the arguments bears its name. -/
theorem isSome_iff_of_filterMap {β : Type} {get : Argument ρ → Option β} {name : Bytes}
    (hname : name ≠ ascii "--authorization")
    (hget : ∀ argument, (get argument).isSome ↔ argument.name = name)
    {arguments : List (Argument ρ)} {o : Option β} (h : arguments.filterMap get = o.toList) :
    o.isSome ↔ ¬ IsNew arguments name := by
  have hsome : o.isSome ↔ ∃ b, b ∈ arguments.filterMap get := by
    rw [h]
    cases o <;> simp
  rw [hsome, IsNew, or_iff_right hname, not_not, List.mem_map]
  constructor
  · rintro ⟨b, hb⟩
    obtain ⟨argument, hmem, hargument⟩ := List.mem_filterMap.mp hb
    exact ⟨argument, hmem, (hget argument).mp (by rw [hargument]; rfl)⟩
  · rintro ⟨argument, hmem, hargument⟩
    obtain ⟨b, hb⟩ := Option.isSome_iff_exists.mp ((hget argument).mpr hargument)
    exact ⟨b, List.mem_filterMap.mpr ⟨argument, hmem, hb⟩⟩

namespace Adds

variable {arguments : List (Argument ρ)} {options : Options ρ}

theorem endpoint_iff (h : blank.Adds arguments options) :
    (!options.endpoint.isEmpty) = true ↔ ¬ IsNew arguments (ascii "--endpoint") := by
  have hgiven : (!options.endpoint.isEmpty) = (given? options.endpoint).isSome := by
    unfold given?
    cases options.endpoint.isEmpty <;> rfl
  rw [hgiven]
  refine isSome_iff_of_filterMap (by decide) (fun argument => ?_) h.endpoint
  cases argument <;> simp [ascii]

theorem tls_iff (h : blank.Adds arguments options) :
    options.tls.isSome = true ↔ ¬ IsNew arguments (ascii "--tls") := by
  refine isSome_iff_of_filterMap (by decide) (fun argument => ?_) h.tls
  cases argument <;> simp [ascii]

theorem authorizationsFile_iff (h : blank.Adds arguments options) :
    options.authorizationsFile.isSome = true ↔
      ¬ IsNew arguments (ascii "--authorizations-file") := by
  refine isSome_iff_of_filterMap (by decide) (fun argument => ?_) h.authorizationsFile
  cases argument <;> simp [ascii]

theorem passwordFile_iff (h : blank.Adds arguments options) :
    options.passwordFile.isSome = true ↔ ¬ IsNew arguments (ascii "--password-file") := by
  refine isSome_iff_of_filterMap (by decide) (fun argument => ?_) h.passwordFile
  cases argument <;> simp [ascii]

end Adds

/-! ## What is refused -/

theorem takeValue_eq_thrown_iff {arguments : List (Argument ρ)} {arg : Bytes}
    (harg : arg ∈ valueNames) {given : Bool} (hgiven : given = true ↔ ¬ IsNew arguments arg)
    {set : Bytes → Except Exn (Options ρ)}
    (hset : ∀ text e, set text = .error e ↔ Unreadable ρ arg text e) {args : List Bytes} {e : Exn} :
    takeValue arg given set args = .error (.thrown e) ↔ Refused arguments arg args e := by
  have hnew : given = false ↔ IsNew arguments arg := by
    rw [← Bool.not_eq_true, hgiven, not_not]
  simp only [takeValue, CommandLine.takeValue_eq_error_iff, mapError_eq_error_iff, hset, hgiven, hnew,
    Stop.thrown.injEq]
  constructor
  · rintro (⟨hduplicate, rfl⟩ | ⟨hfirst, rfl, rfl⟩ | ⟨hfirst, text, rest, rfl, e', htext, rfl⟩)
    · exact .duplicate hduplicate
    · exact .noValue harg hfirst
    · exact .unreadable hfirst htext
  · intro h
    cases h with
    | unknown hunknown => exact absurd (List.mem_cons_of_mem _ (List.mem_cons_of_mem _ harg)) hunknown
    | duplicate hduplicate => exact .inl ⟨hduplicate, rfl⟩
    | noValue _ hfirst => exact .inr (.inl ⟨hfirst, rfl, rfl⟩)
    | noValues _ _ => exact absurd harg (by decide)
    | unreadable hfirst htext => exact .inr (.inr ⟨hfirst, _, _, rfl, _, htext, rfl⟩)

theorem refused_tls_iff {arguments : List (Argument ρ)} {args : List Bytes} {e : Exn} :
    Refused arguments (ascii "--tls") args e ↔
      ¬ IsNew arguments (ascii "--tls") ∧
        e = .runtimeError ("duplicate argument " ++ quote (ascii "--tls")) ∨
      IsNew arguments (ascii "--tls") ∧ args.length < 2 ∧
        e = .runtimeError (quote (ascii "--tls") ++ " requires two arguments") := by
  constructor
  · generalize harg : ascii "--tls" = arg
    intro h
    cases h with
    | unknown hunknown => exact absurd (mem_names_iff.mpr (.inr (.inl harg.symm))) hunknown
    | duplicate hgiven => exact .inl ⟨hgiven, rfl⟩
    | noValue hvalue _ =>
        subst harg
        exact absurd hvalue (by decide)
    | noValues hnew hargs => exact .inr ⟨hnew, hargs, rfl⟩
    | unreadable hnew htext =>
        subst harg
        rcases htext with ⟨hname, -⟩ | ⟨hname, -⟩ <;> exact absurd hname (by decide)
  · rintro (⟨hgiven, rfl⟩ | ⟨hnew, hargs, rfl⟩)
    · exact .duplicate hgiven
    · exact .noValues hnew hargs

theorem isNew_of_notMem {arg : Bytes} (htls : arg ≠ ascii "--tls") (hvalue : arg ∉ valueNames)
    (arguments : List (Argument ρ)) : IsNew arguments arg := by
  refine .inr fun hmem => ?_
  obtain ⟨argument, -, rfl⟩ := List.mem_map.mp hmem
  cases argument with
  | tls given => exact htls rfl
  | _ => exact hvalue (by simp [valueNames])

/-- Words that ask for no values are only refused where they name no option. -/
theorem refused_iff_of_notMem {arg : Bytes} (htls : arg ≠ ascii "--tls") (hvalue : arg ∉ valueNames)
    {arguments : List (Argument ρ)} {args : List Bytes} {e : Exn} :
    Refused arguments arg args e ↔
      arg ∉ names ∧ e = .runtimeError ("invalid argument \"" ++ quote arg ++ "\"") := by
  constructor
  · intro h
    cases h with
    | unknown hunknown => exact ⟨hunknown, rfl⟩
    | duplicate hgiven => exact absurd (isNew_of_notMem htls hvalue arguments) hgiven
    | noValue hmem _ => exact absurd hmem hvalue
    | noValues _ _ => exact absurd rfl htls
    | unreadable _ htext =>
        rcases htext with ⟨rfl, -⟩ | ⟨rfl, -⟩ <;> exact absurd (by decide) hvalue
  · rintro ⟨hunknown, rfl⟩
    exact .unknown hunknown

/-- A round refuses what is refused behind the arguments that have led to the options. -/
theorem Adds.parseArgument_eq_thrown_iff {arguments : List (Argument ρ)} {options : Options ρ}
    (h : blank.Adds arguments options) {arg : Bytes} {args : List Bytes} {e : Exn} :
    options.parseArgument arg args = .error (.thrown e) ↔ Refused arguments arg args e := by
  by_cases harg : arg ∈ names
  · rcases mem_names_iff.mp harg with rfl | rfl | rfl | rfl | rfl | rfl
    · rw [refused_iff_of_notMem (by decide) (by decide)]
      exact iff_of_false nofun fun hunknown => hunknown.1 harg
    · rw [parseArgument_tls, refused_tls_iff, ← not_not (a := IsNew arguments _), ← h.tls_iff]
      cases options.tls with
      | some given => simp [eq_comm]
      | none =>
          rcases args with _ | ⟨certfile, _ | ⟨keyfile, args⟩⟩ <;> simp [eq_comm]
    · rw [parseArgument_endpoint]
      refine takeValue_eq_thrown_iff (by decide) h.endpoint_iff fun text e => ?_
      have hname : ascii "--endpoint" ≠ ascii "--authorization" := by decide
      cases htext : Endpoint.parse text <;> simp [Unreadable, htext, hname, bind, Except.bind]
    · rw [parseArgument_authorizationsFile]
      refine takeValue_eq_thrown_iff (by decide) h.authorizationsFile_iff fun text e => ?_
      exact iff_of_false nofun (by rintro (⟨hname, -⟩ | ⟨hname, -⟩) <;> revert hname <;> decide)
    · rw [parseArgument_passwordFile]
      refine takeValue_eq_thrown_iff (by decide) h.passwordFile_iff fun text e => ?_
      exact iff_of_false nofun (by rintro (⟨hname, -⟩ | ⟨hname, -⟩) <;> revert hname <;> decide)
    · rw [parseArgument_authorization]
      refine takeValue_eq_thrown_iff (by decide) (by simp [IsNew]) fun text e => ?_
      have hname : ascii "--authorization" ≠ ascii "--endpoint" := by decide
      cases hline : (AuthorizationSpec.fromLine text : Except Exn (AuthorizationSpec ρ)) <;>
        simp [Unreadable, hline, hname, bind, Except.bind]
  · rw [parseArgument_of_unknown harg]
    have hmem := mt mem_names_iff.mpr harg
    rw [refused_iff_of_notMem (fun htls => hmem (.inr (.inl htls)))
      fun hvalue => harg (List.mem_cons_of_mem _ (List.mem_cons_of_mem _ hvalue))]
    simp [harg, eq_comm]

/-! ## The command line -/

/-- **The command line of the server is read as it is written**: `parse` returns, exits or throws just as
`Reads` says of the arguments of the usage text. -/
theorem server_parse_iff {args : List Bytes} {result : Except Stop (Options ρ)} :
    parse args = result ↔ Reads args result := by
  have hreads : ∀ (arguments : List (Argument ρ)) options, arguments.foldlM apply blank = some options →
      options.withDefault.SaidBy arguments := fun arguments options h =>
    saidBy_iff.mpr ⟨options, foldlM_apply_iff.mp h, rfl⟩
  constructor
  · rintro rfl
    cases hparse : CommandLine.parse parseArgument (blank : Options ρ) args with
    | ok options =>
        obtain ⟨arguments, hargs, harguments⟩ := takes_parseArgument.parse_eq_ok_iff.mp hparse
        rw [parse, hparse]
        exact .options hargs (hreads _ _ harguments)
    | error stop =>
        obtain ⟨arguments, options, arg, rest, hargs, harguments, hround⟩ :=
          takes_parseArgument.parse_eq_error_iff.mp hparse
        rw [parse, hparse]
        cases stop with
        | exited =>
            rw [parseArgument_eq_exited_iff.mp hround] at hargs
            exact .help hargs (hreads _ _ harguments)
        | thrown e =>
            exact .refused hargs (hreads _ _ harguments)
              ((foldlM_apply_iff.mp harguments).parseArgument_eq_thrown_iff.mp hround)
  · rintro (⟨hargs, hsaid⟩ | ⟨hargs, hsaid⟩ | ⟨hargs, hsaid, hrefused⟩)
    · obtain ⟨options', hadds, rfl⟩ := saidBy_iff.mp hsaid
      have hparse := takes_parseArgument.parse_eq_ok_iff.mpr ⟨_, hargs, foldlM_apply_iff.mpr hadds⟩
      rw [parse, hparse]
      rfl
    · obtain ⟨options', hadds, rfl⟩ := saidBy_iff.mp hsaid
      have hparse := takes_parseArgument.parse_eq_error_iff.mpr ⟨_, options', _, _, hargs,
        foldlM_apply_iff.mpr hadds, parseArgument_eq_exited_iff.mpr rfl⟩
      rw [parse, hparse]
      rfl
    · obtain ⟨options', hadds, rfl⟩ := saidBy_iff.mp hsaid
      have hparse := takes_parseArgument.parse_eq_error_iff.mpr ⟨_, options', _, _, hargs,
        foldlM_apply_iff.mpr hadds, hadds.parseArgument_eq_thrown_iff.mpr hrefused⟩
      rw [parse, hparse]
      rfl

end Options

end SquawkBus.Server
