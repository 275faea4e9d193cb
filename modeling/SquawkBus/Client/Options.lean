import SquawkBus.Io.Endpoint
import SquawkBus.Library.CommandLine
import SquawkBus.Library.Run
import SquawkBus.Messages.Basic
import SquawkBus.Serialization.Base64

/-!
# The command line of the client

`Options::parse`, which ends the process where the model gives an error: `exit(1)`, once its text has
been printed. Of `--host` and `--authentication` the last one counts, though a host is only replaced
while it is empty (`client_parse_iff`).
-/

namespace SquawkBus.Client

open SquawkBus.Io SquawkBus.Messages SquawkBus.Serialization SquawkBus.Server

/-! ## Options -/

structure AuthenticationOption where
  username : Bytes
  password : Bytes
  deriving DecidableEq

structure Options where
  host : Bytes
  port : UInt16
  tls : Bool
  capath : Option Bytes
  authentication : Option AuthenticationOption
  deriving DecidableEq

namespace Options

/-- `Options {}`. -/
def blank : Options := ⟨[], 0, false, none, none⟩

/-- The options that take one argument. -/
def valueNames : List Bytes := [ascii "--port", ascii "--host", ascii "--capath"]

/-- The options there are. -/
def names : List Bytes := ascii "--tls" :: ascii "--authentication" :: valueNames

/-- An argument in a message. -/
def quote (arg : Bytes) : String := String.ofList (arg.map fun c => Char.ofNat c.toNat)

/-! ## Parsing -/

/-- An option that takes an argument, and may not have been given before. -/
def takeValue (arg : Bytes) (given : Bool) (set : Bytes → Except Exn Options) :
    List Bytes → Except Exn (Options × List Bytes) :=
  CommandLine.takeValue given (.runtimeError ("duplicate arg " ++ quote arg))
    (.runtimeError (quote arg ++ " requires 1 arg")) set

/-- The argument of `--port`. -/
def parsePort (text : Bytes) : Except Exn UInt16 := do
  let port ← stoi text
  if port ≤ 0 ∨ 65535 < port then .error (.runtimeError "invalid argument for --port")
  else .ok (UInt16.ofNat port.toInt.toNat)

/-- A round of the loop of `parse`. -/
def parseArgument (options : Options) (arg : Bytes) (args : List Bytes) :
    Except Exn (Options × List Bytes) :=
  if arg = ascii "--port" then
    takeValue arg (options.port != 0) (fun text => do
      let port ← parsePort text
      .ok { options with port }) args
  else if arg = ascii "--host" then
    takeValue arg (!options.host.isEmpty) (fun host => .ok { options with host }) args
  else if arg = ascii "--tls" then
    .ok ({ options with tls := true }, args)
  else if arg = ascii "--capath" then
    takeValue arg options.capath.isSome (fun capath => .ok { options with capath := some capath }) args
  else if arg = ascii "--authentication" then
    match args with
    | username :: password :: args =>
        .ok ({ options with authentication := some ⟨username, password⟩ }, args)
    | _ => .error (.runtimeError (quote arg ++ " requires 2 args"))
  else .error (.runtimeError ("invalid argument " ++ quote arg))

def withDefaults (options : Options) : Options :=
  { options with
    port := if options.port = 0 then 8558 else options.port
    host := if options.host.isEmpty then ascii "localhost" else options.host }

/-- `parse`, of the arguments behind the name of the program. -/
def parse (args : List Bytes) : Except Exn Options := do
  let options ← CommandLine.parse parseArgument blank args
  .ok options.withDefaults

def makeAuthenticationRequest (options : Options) : AuthenticationRequest :=
  match options.authentication with
  | none => ⟨ascii "none", []⟩
  | some authentication =>
      ⟨ascii "basic", encodeBasicToken authentication.username authentication.password⟩

end Options

/-! ## The usage text -/

/-- An option of the usage text, with a value that can be read. -/
inductive Argument where
  | port (text : Bytes) (given : UInt16) (htext : Options.parsePort text = .ok given)
  | host (given : Bytes)
  | tls
  | capath (given : Bytes)
  | authentication (given : AuthenticationOption)

namespace Argument

/-- What is written for it. -/
def words : Argument → List Bytes
  | port text _ _ => [ascii "--port", text]
  | host given => [ascii "--host", given]
  | tls => [ascii "--tls"]
  | capath given => [ascii "--capath", given]
  | authentication given => [ascii "--authentication", given.username, given.password]

/-- The first of its words. -/
def name : Argument → Bytes
  | port _ _ _ => ascii "--port"
  | host _ => ascii "--host"
  | tls => ascii "--tls"
  | capath _ => ascii "--capath"
  | authentication _ => ascii "--authentication"

@[simp] def port? : Argument → Option UInt16
  | port _ given _ => some given
  | _ => none

@[simp] def host? : Argument → Option Bytes
  | host given => some given
  | _ => none

@[simp] def isTls : Argument → Bool
  | tls => true
  | _ => false

@[simp] def capath? : Argument → Option Bytes
  | capath given => some given
  | _ => none

@[simp] def authentication? : Argument → Option AuthenticationOption
  | authentication given => some given
  | _ => none

/-- Whether the option may be given again behind it. -/
def again : Argument → Bool
  | port _ _ _ => false
  | host given => given.isEmpty
  | tls => true
  | capath _ => false
  | authentication _ => true

end Argument

/-! ### What a command line says -/

/-- The option may be given behind the arguments. -/
def IsNew (arguments : List Argument) (arg : Bytes) : Prop :=
  ∀ argument ∈ arguments, argument.name = arg → argument.again = true

/-- **The arguments say what the options are**: each was new where it was given, and of those that were
given again the last one counts. -/
structure Options.SaidBy (options : Options) (arguments : List Argument) : Prop where
  isNew : Run.Abides (fun before argument => IsNew before argument.name) arguments
  port : options.port = (arguments.filterMap Argument.port?).getLast?.getD 8558
  host : options.host = if ((arguments.filterMap Argument.host?).getLast?.getD []).isEmpty
    then ascii "localhost" else (arguments.filterMap Argument.host?).getLast?.getD []
  tls : options.tls = arguments.any Argument.isTls
  capath : options.capath = (arguments.filterMap Argument.capath?).getLast?
  authentication : options.authentication = (arguments.filterMap Argument.authentication?).getLast?

/-- **What is refused**, behind arguments that are not. -/
inductive Refused (arguments : List Argument) : Bytes → List Bytes → Exn → Prop
  | unknown {arg : Bytes} {rest : List Bytes} (harg : arg ∉ Options.names) :
      Refused arguments arg rest (.runtimeError ("invalid argument " ++ Options.quote arg))
  | duplicate {arg : Bytes} {rest : List Bytes} (hgiven : ¬ IsNew arguments arg) :
      Refused arguments arg rest (.runtimeError ("duplicate arg " ++ Options.quote arg))
  | noValue {arg : Bytes} (harg : arg ∈ Options.valueNames) (hnew : IsNew arguments arg) :
      Refused arguments arg [] (.runtimeError (Options.quote arg ++ " requires 1 arg"))
  | noValues {rest : List Bytes} (hrest : rest.length < 2) :
      Refused arguments (ascii "--authentication") rest
        (.runtimeError (Options.quote (ascii "--authentication") ++ " requires 2 args"))
  | unreadable {text : Bytes} {rest : List Bytes} {e : Exn}
      (hnew : IsNew arguments (ascii "--port")) (htext : Options.parsePort text = .error e) :
      Refused arguments (ascii "--port") (text :: rest) e

/-- **What is made of a command line.** -/
inductive Reads (args : List Bytes) : Except Exn Options → Prop
  | options {arguments : List Argument} {options : Options}
      (hargs : args = arguments.flatMap Argument.words) (hsaid : options.SaidBy arguments) :
      Reads args (.ok options)
  | refused {arguments : List Argument} {options : Options} {arg : Bytes} {rest : List Bytes}
      {e : Exn} (hargs : args = arguments.flatMap Argument.words ++ arg :: rest)
      (hsaid : options.SaidBy arguments) (hrefused : Refused arguments arg rest e) :
      Reads args (.error e)

/-! ## A round -/

namespace Options

def has (options : Options) : Argument → Bool
  | .port _ _ _ => options.port != 0
  | .host _ => !options.host.isEmpty
  | .tls => false
  | .capath _ => options.capath.isSome
  | .authentication _ => false

def set (options : Options) : Argument → Options
  | .port _ given _ => { options with port := given }
  | .host given => { options with host := given }
  | .tls => { options with tls := true }
  | .capath given => { options with capath := some given }
  | .authentication given => { options with authentication := some given }

/-- What an argument makes of the options, where it may be given. -/
def apply (options : Options) (argument : Argument) : Option Options :=
  if options.has argument then none else some (options.set argument)

theorem apply_eq_some_iff {options options' : Options} {argument : Argument} :
    options.apply argument = some options' ↔
      options.has argument = false ∧ options.set argument = options' := by
  unfold apply
  cases options.has argument <;> simp

theorem mem_names_iff {arg : Bytes} : arg ∈ names ↔ arg = ascii "--tls" ∨
    arg = ascii "--authentication" ∨ arg = ascii "--port" ∨ arg = ascii "--host" ∨
    arg = ascii "--capath" := by
  simp [names, valueNames]

theorem parseArgument_of_unknown {arg : Bytes} (harg : arg ∉ names) (options : Options)
    (args : List Bytes) : options.parseArgument arg args =
      .error (.runtimeError ("invalid argument " ++ quote arg)) := by
  simp only [mem_names_iff, not_or] at harg
  unfold parseArgument
  simp only [harg, if_false]

theorem parseArgument_port (options : Options) (args : List Bytes) :
    options.parseArgument (ascii "--port") args =
      takeValue (ascii "--port") (options.port != 0) (fun text => do
        let port ← parsePort text
        .ok { options with port }) args := rfl

theorem parseArgument_host (options : Options) (args : List Bytes) :
    options.parseArgument (ascii "--host") args =
      takeValue (ascii "--host") (!options.host.isEmpty)
        (fun host => .ok { options with host }) args := rfl

theorem parseArgument_tls (options : Options) (args : List Bytes) :
    options.parseArgument (ascii "--tls") args = .ok ({ options with tls := true }, args) := rfl

theorem parseArgument_capath (options : Options) (args : List Bytes) :
    options.parseArgument (ascii "--capath") args =
      takeValue (ascii "--capath") options.capath.isSome
        (fun capath => .ok { options with capath := some capath }) args := rfl

theorem parseArgument_authentication (options : Options) (args : List Bytes) :
    options.parseArgument (ascii "--authentication") args =
      match args with
      | username :: password :: args =>
          .ok ({ options with authentication := some ⟨username, password⟩ }, args)
      | _ => .error (.runtimeError (quote (ascii "--authentication") ++ " requires 2 args")) := rfl

/-- A round takes one argument of the usage text. -/
theorem takes_parseArgument : CommandLine.Takes parseArgument Argument.words apply := by
  refine ⟨fun argument => by cases argument <;> exact List.cons_ne_nil _ _, ?_⟩
  intro options arg args options' rest
  simp only [apply_eq_some_iff]
  constructor
  · intro h
    by_cases harg : arg ∈ names
    · rcases mem_names_iff.mp harg with rfl | rfl | rfl | rfl | rfl
      · rw [parseArgument_tls] at h
        obtain ⟨rfl, rfl⟩ := Prod.mk.inj (Except.ok.inj h)
        exact ⟨.tls, rfl, rfl, rfl⟩
      · rw [parseArgument_authentication] at h
        split at h
        · obtain ⟨rfl, rfl⟩ := Prod.mk.inj (Except.ok.inj h)
          exact ⟨.authentication ⟨_, _⟩, rfl, rfl, rfl⟩
        · cases h
      · rw [parseArgument_port] at h
        obtain ⟨hgiven, text, rfl, hset⟩ := CommandLine.takeValue_eq_ok_iff.mp h
        obtain ⟨port, htext, hoptions⟩ := Except.bind_eq_ok.mp hset
        exact ⟨.port text port htext, rfl, hgiven, Except.ok.inj hoptions⟩
      · rw [parseArgument_host] at h
        obtain ⟨hgiven, host, rfl, hset⟩ := CommandLine.takeValue_eq_ok_iff.mp h
        exact ⟨.host host, rfl, hgiven, Except.ok.inj hset⟩
      · rw [parseArgument_capath] at h
        obtain ⟨hgiven, capath, rfl, hset⟩ := CommandLine.takeValue_eq_ok_iff.mp h
        exact ⟨.capath capath, rfl, hgiven, Except.ok.inj hset⟩
    · rw [parseArgument_of_unknown harg] at h
      cases h
  · rintro ⟨argument, hargs, hgiven, rfl⟩
    cases argument with
    | port text given htext =>
        obtain ⟨rfl, rfl⟩ := List.cons.inj hargs
        rw [parseArgument_port]
        exact CommandLine.takeValue_eq_ok_iff.mpr
          ⟨hgiven, text, rfl, Except.bind_eq_ok.mpr ⟨given, htext, rfl⟩⟩
    | host given =>
        obtain ⟨rfl, rfl⟩ := List.cons.inj hargs
        rw [parseArgument_host]
        exact CommandLine.takeValue_eq_ok_iff.mpr ⟨hgiven, given, rfl, rfl⟩
    | tls =>
        obtain ⟨rfl, rfl⟩ := List.cons.inj hargs
        rfl
    | capath given =>
        obtain ⟨rfl, rfl⟩ := List.cons.inj hargs
        rw [parseArgument_capath]
        exact CommandLine.takeValue_eq_ok_iff.mpr ⟨hgiven, given, rfl, rfl⟩
    | authentication given =>
        obtain ⟨rfl, rfl⟩ := List.cons.inj hargs
        rfl

/-! ## What has been given -/

theorem port_ne_zero {text : Bytes} {given : UInt16} (h : parsePort text = .ok given) : given ≠ 0 := by
  obtain ⟨port, -, hrange⟩ := Except.bind_eq_ok.mp h
  split at hrange
  · cases hrange
  · next hin =>
    obtain ⟨hpos, hlt⟩ := (Endpoint.inRange_iff port).mp hin
    obtain rfl := Except.ok.inj hrange
    exact (Endpoint.ofNat_toNat_of_inRange hpos hlt).1

theorem has_set_of_ne {argument other : Argument} (h : argument.name ≠ other.name)
    (options : Options) : (options.set argument).has other = options.has other := by
  cases argument <;> cases other <;> first | rfl | exact absurd rfl h

theorem has_set_of_eq {argument other : Argument} (h : argument.name = other.name)
    (options : Options) : (options.set argument).has other = !argument.again := by
  cases argument with
  | port text given htext =>
      have hne := port_ne_zero htext
      cases other <;> simp_all [ascii, Argument.name, Argument.again, has, set]
  | _ => cases other <;> simp_all [ascii, Argument.name, Argument.again, has, set]

theorem isNew_snoc {arguments : List Argument} {argument : Argument} {arg : Bytes} :
    IsNew (arguments ++ [argument]) arg ↔
      IsNew arguments arg ∧ (argument.name = arg → argument.again = true) := by
  simp [IsNew, or_imp, forall_and]

/-- Behind arguments that were new, an option has been given where it may not be given again. -/
theorem has_foldl_iff {arguments : List Argument}
    (h : Run.Abides (fun before argument => IsNew before argument.name) arguments)
    (argument : Argument) :
    (arguments.foldl set blank).has argument = true ↔ ¬ IsNew arguments argument.name := by
  induction arguments using List.reverseRecOn with
  | nil => cases argument <;> simp [blank, IsNew, has]
  | append_singleton arguments last ih =>
      obtain ⟨hbefore, hlast⟩ := Run.abides_snoc.mp h
      rw [List.foldl_append, List.foldl_cons, List.foldl_nil, isNew_snoc]
      by_cases hname : last.name = argument.name
      · rw [has_set_of_eq hname]
        simp [hname, hname ▸ hlast]
      · rw [has_set_of_ne hname, ih hbefore]
        simp [hname]

theorem foldlM_apply_iff {options : Options} {arguments : List Argument} :
    arguments.foldlM apply blank = some options ↔
      Run.Abides (fun before argument => IsNew before argument.name) arguments ∧
        arguments.foldl set blank = options := by
  induction arguments using List.reverseRecOn generalizing options with
  | nil =>
      rw [List.foldlM_nil, List.foldl_nil]
      exact Option.some_inj.trans (and_iff_right (Run.abides_nil _)).symm
  | append_singleton arguments last ih =>
      rw [List.foldlM_append, Option.bind_eq_bind, Option.bind_eq_some_iff, List.foldl_append,
        Run.abides_snoc]
      simp only [ih, List.foldlM_cons, List.foldlM_nil, List.foldl_cons, List.foldl_nil, bind_pure]
      constructor
      · rintro ⟨before, ⟨habides, rfl⟩, hlast⟩
        obtain ⟨hgiven, rfl⟩ := apply_eq_some_iff.mp hlast
        refine ⟨⟨habides, ?_⟩, rfl⟩
        rwa [← not_not (a := IsNew _ _), ← has_foldl_iff habides, Bool.not_eq_true]
      · rintro ⟨⟨habides, hnew⟩, rfl⟩
        refine ⟨_, ⟨habides, rfl⟩, ?_⟩
        rw [← not_not (a := IsNew _ _), ← has_foldl_iff habides, Bool.not_eq_true] at hnew
        exact apply_eq_some_iff.mpr ⟨hnew, rfl⟩

/-! ### The options of a list of arguments -/

/-- The last one counts. -/
theorem foldl_set (arguments : List Argument) : arguments.foldl set blank =
    { host := (arguments.filterMap Argument.host?).getLast?.getD []
      port := (arguments.filterMap Argument.port?).getLast?.getD 0
      tls := arguments.any Argument.isTls
      capath := (arguments.filterMap Argument.capath?).getLast?
      authentication := (arguments.filterMap Argument.authentication?).getLast? } := by
  induction arguments using List.reverseRecOn with
  | nil => rfl
  | append_singleton arguments last ih =>
      rw [List.foldl_append, List.foldl_cons, List.foldl_nil, ih]
      cases last <;> simp [List.filterMap_cons, set]

/-- No argument gives the port that stands for none. -/
theorem getLast?_port (arguments : List Argument) :
    (if (arguments.filterMap Argument.port?).getLast?.getD 0 = 0 then 8558
      else (arguments.filterMap Argument.port?).getLast?.getD 0) =
      (arguments.filterMap Argument.port?).getLast?.getD 8558 := by
  cases hlast : (arguments.filterMap Argument.port?).getLast? with
  | none => rfl
  | some given =>
      obtain ⟨argument, -, hargument⟩ := List.mem_filterMap.mp (List.mem_of_getLast? hlast)
      cases argument with
      | port text given' htext =>
          obtain rfl := Option.some.inj hargument
          exact if_neg (port_ne_zero htext)
      | _ => cases hargument

/-- The options are those the arguments lead to, with the defaults for what they leave out. -/
theorem saidBy_iff {arguments : List Argument} {options : Options} :
    options.SaidBy arguments ↔
      Run.Abides (fun before argument => IsNew before argument.name) arguments ∧
        (arguments.foldl set blank).withDefaults = options := by
  have hfields : (arguments.foldl set blank).withDefaults = options ↔
      options.host = (if ((arguments.filterMap Argument.host?).getLast?.getD []).isEmpty
        then ascii "localhost" else (arguments.filterMap Argument.host?).getLast?.getD []) ∧
      options.port = (arguments.filterMap Argument.port?).getLast?.getD 8558 ∧
      options.tls = arguments.any Argument.isTls ∧
      options.capath = (arguments.filterMap Argument.capath?).getLast? ∧
      options.authentication = (arguments.filterMap Argument.authentication?).getLast? := by
    rw [foldl_set, ← getLast?_port, eq_comm]
    cases options
    exact mk.injEq .. ▸ Iff.rfl
  rw [hfields]
  constructor
  · intro h
    exact ⟨h.isNew, h.host, h.port, h.tls, h.capath, h.authentication⟩
  · rintro ⟨hnew, hhost, hport, htls, hcapath, hauthentication⟩
    exact ⟨hnew, hport, hhost, htls, hcapath, hauthentication⟩

/-! ## What is refused -/

theorem takeValue_eq_error_iff {arguments : List Argument} {arg : Bytes}
    (harg : arg ∈ valueNames) {given : Bool} (hgiven : given = true ↔ ¬ IsNew arguments arg)
    {set : Bytes → Except Exn Options}
    (hset : ∀ text e, set text = .error e ↔ arg = ascii "--port" ∧ parsePort text = .error e)
    {args : List Bytes} {e : Exn} :
    takeValue arg given set args = .error e ↔ Refused arguments arg args e := by
  have hnew : given = false ↔ IsNew arguments arg := by
    rw [← Bool.not_eq_true, hgiven, not_not]
  simp only [takeValue, CommandLine.takeValue_eq_error_iff, hset, hgiven, hnew]
  constructor
  · rintro (⟨hduplicate, rfl⟩ | ⟨hfirst, rfl, rfl⟩ | ⟨hfirst, text, rest, rfl, rfl, htext⟩)
    · exact .duplicate hduplicate
    · exact .noValue harg hfirst
    · exact .unreadable hfirst htext
  · intro h
    cases h with
    | unknown hunknown => exact absurd (List.mem_cons_of_mem _ (List.mem_cons_of_mem _ harg)) hunknown
    | duplicate hduplicate => exact .inl ⟨hduplicate, rfl⟩
    | noValue _ hfirst => exact .inr (.inl ⟨hfirst, rfl, rfl⟩)
    | noValues _ => exact absurd harg (by decide)
    | unreadable hfirst htext => exact .inr (.inr ⟨hfirst, _, _, rfl, rfl, htext⟩)

/-- An option that may always be given again. -/
theorem isNew_of_notMem {arg : Bytes} (hvalue : arg ∉ valueNames) (arguments : List Argument) :
    IsNew arguments arg := by
  rintro argument - rfl
  cases argument <;> first | rfl | exact absurd (by simp [valueNames, Argument.name]) hvalue

theorem refused_iff_of_notMem {arg : Bytes} (hvalue : arg ∉ valueNames) {arguments : List Argument}
    {args : List Bytes} {e : Exn} : Refused arguments arg args e ↔
      arg ∉ names ∧ e = .runtimeError ("invalid argument " ++ quote arg) ∨
        arg = ascii "--authentication" ∧ args.length < 2 ∧
          e = .runtimeError (quote arg ++ " requires 2 args") := by
  constructor
  · intro h
    cases h with
    | unknown hunknown => exact .inl ⟨hunknown, rfl⟩
    | duplicate hgiven => exact absurd (isNew_of_notMem hvalue arguments) hgiven
    | noValue hmem _ => exact absurd hmem hvalue
    | noValues hrest => exact .inr ⟨rfl, hrest, rfl⟩
    | unreadable _ _ => exact absurd (by decide) hvalue
  · rintro (⟨hunknown, rfl⟩ | ⟨rfl, hrest, rfl⟩)
    · exact .unknown hunknown
    · exact .noValues hrest

/-- A round refuses what is refused behind the arguments that have led to the options. -/
theorem parseArgument_eq_error_iff {arguments : List Argument}
    (h : Run.Abides (fun before argument => IsNew before argument.name) arguments) {arg : Bytes}
    {args : List Bytes} {e : Exn} :
    (arguments.foldl Options.set blank).parseArgument arg args = .error e ↔
      Refused arguments arg args e := by
  by_cases harg : arg ∈ names
  · rcases mem_names_iff.mp harg with rfl | rfl | rfl | rfl | rfl
    · rw [parseArgument_tls, refused_iff_of_notMem (by decide)]
      refine iff_of_false nofun ?_
      rintro (⟨hunknown, -⟩ | ⟨hname, -⟩)
      · exact hunknown harg
      · exact absurd hname (by decide)
    · rw [parseArgument_authentication, refused_iff_of_notMem (by decide)]
      rcases args with _ | ⟨username, _ | ⟨password, args⟩⟩ <;> simp [harg, eq_comm]
    · rw [parseArgument_port]
      refine takeValue_eq_error_iff (by decide) (has_foldl_iff h (.port (ascii "1") 1 rfl))
        fun text e => ?_
      cases parsePort text <;> simp [Argument.name, bind, Except.bind]
    · rw [parseArgument_host]
      refine takeValue_eq_error_iff (by decide) (has_foldl_iff h (.host [])) fun text e => ?_
      exact iff_of_false nofun fun hname => absurd hname.1 (by decide)
    · rw [parseArgument_capath]
      refine takeValue_eq_error_iff (by decide) (has_foldl_iff h (.capath [])) fun text e => ?_
      exact iff_of_false nofun fun hname => absurd hname.1 (by decide)
  · have hmem := mt mem_names_iff.mpr harg
    rw [parseArgument_of_unknown harg, refused_iff_of_notMem fun hvalue =>
      harg (List.mem_cons_of_mem _ (List.mem_cons_of_mem _ hvalue))]
    have hother : arg ≠ ascii "--authentication" := fun heq => hmem (.inr (.inl heq))
    simp [harg, hother, eq_comm]

/-! ## The result -/

/-- **The command line of the client is read as it is written**: `parse` returns, or ends the process with
a text, just as `Reads` says of the options of the usage text. -/
theorem client_parse_iff {args : List Bytes} {result : Except Exn Options} :
    parse args = result ↔ Reads args result := by
  constructor
  · rintro rfl
    cases hparse : CommandLine.parse parseArgument blank args with
    | ok options =>
        obtain ⟨arguments, hargs, harguments⟩ := takes_parseArgument.parse_eq_ok_iff.mp hparse
        obtain ⟨hnew, rfl⟩ := foldlM_apply_iff.mp harguments
        rw [parse, hparse]
        exact .options hargs (saidBy_iff.mpr ⟨hnew, rfl⟩)
    | error e =>
        obtain ⟨arguments, options, arg, rest, hargs, harguments, hround⟩ :=
          takes_parseArgument.parse_eq_error_iff.mp hparse
        obtain ⟨hnew, rfl⟩ := foldlM_apply_iff.mp harguments
        rw [parse, hparse]
        exact .refused hargs (saidBy_iff.mpr ⟨hnew, rfl⟩) ((parseArgument_eq_error_iff hnew).mp hround)
  · rintro (⟨hargs, hsaid⟩ | ⟨hargs, hsaid, hrefused⟩)
    · obtain ⟨hnew, rfl⟩ := saidBy_iff.mp hsaid
      rw [parse, takes_parseArgument.parse_eq_ok_iff.mpr
        ⟨_, hargs, foldlM_apply_iff.mpr ⟨hnew, rfl⟩⟩]
      rfl
    · obtain ⟨hnew, rfl⟩ := saidBy_iff.mp hsaid
      rw [parse, takes_parseArgument.parse_eq_error_iff.mpr ⟨_, _, _, _, hargs,
        foldlM_apply_iff.mpr ⟨hnew, rfl⟩, (parseArgument_eq_error_iff hnew).mpr hrefused⟩]
      rfl

end Options

end SquawkBus.Client
