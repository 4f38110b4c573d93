import MemberStubs.Settings.Configuration
import MemberStubs.Text.Digits

namespace MemberStubs

/-! The arguments of the program. The first one names a command, or asks for the version; options
follow in any order, with their values behind an equals sign or as the next argument. -/

structure PlanArguments where
  root : Path := ⟨"."⟩
  artifacts : Option Path := none
  reports : List Path := []
  program : Option Path := none
  output : Option Path := none
  overrides : Overrides := {}
  maxFiles : Option UInt64 := none
  maxClasses : Option UInt64 := none
  deriving DecidableEq, Repr

structure ApplyArguments where
  root : Path := ⟨"."⟩
  output : Option Path := none
  write : Bool := false
  overrides : Overrides := {}
  deriving DecidableEq, Repr

inductive Command where
  | version
  | plan (arguments : PlanArguments)
  | apply (arguments : ApplyArguments)
  | explain (query : Option String)
  deriving DecidableEq, Repr

namespace Command

/-! ## Options and operands -/

/-- The options that a command has, with and without a value. Options that may be repeated are among
those with a value. -/
structure OptionNames where
  flags : List String := []
  valued : List String := []
  repeatable : List String := []

structure Given where
  options : List (String × Option String) := []
  operands : List String := []
  deriving DecidableEq, Repr

/-- A hyphen alone is a value, but nothing else that starts with one. -/
def isValue (argument : String) : Bool :=
  argument = "-" || argument.toList.head? ≠ some '-'

/-- The name of a long option and the value attached to it. -/
def longOption? (argument : String) : Option (String × Option String) :=
  match argument.toList with
  | '-' :: '-' :: body =>
      let name := String.ofList (body.takeWhile (· ≠ '='))
      match body.dropWhile (· ≠ '=') with
      | [] => some (name, none)
      | _ :: value => some (name, some (String.ofList value))
  | _ => none

def addOption (option : String × Option String) (given : Given) : Given :=
  { given with options := option :: given.options }

def addOperand (operand : String) (given : Given) : Given :=
  { given with operands := operand :: given.operands }

/-- Two hyphens alone end the options. -/
def split? (names : OptionNames) : List String → Option Given
  | [] => some {}
  | "--" :: operands => some { operands }
  | argument :: rest =>
      match longOption? argument with
      | some (name, attached) =>
          if names.flags.contains name then
            if attached.isSome then none else (split? names rest).map (addOption (name, none))
          else if names.valued.contains name then
            match attached with
            | some value => (split? names rest).map (addOption (name, some value))
            | none =>
                match rest with
                | [] => none
                | value :: later =>
                    if isValue value then (split? names later).map (addOption (name, some value))
                    else none
          else none
      | none => if isValue argument then (split? names rest).map (addOperand argument) else none

namespace Given

/-- Only some options may be given more than once. -/
def isRepetitive (given : Given) (names : OptionNames) : Bool :=
  let single := (given.options.map Prod.fst).filter fun name => !names.repeatable.contains name
  single.eraseDups.length ≠ single.length

def flag (given : Given) (name : String) : Bool :=
  (given.options.lookup name).isSome

def values (given : Given) (name : String) : List String :=
  given.options.filterMap fun option => if option.1 = name then option.2 else none

/-- The value of an option, if it is given; nothing at all if it is given a wrong one. -/
def value? (given : Given) (name : String) (read : String → Option α) : Option (Option α) :=
  match (given.values name).head? with
  | none => some none
  | some text => (read text).map some

def path? (given : Given) (name : String) : Option Path :=
  (given.values name).head?.map Path.mk

end Given

def given? (names : OptionNames) (arguments : List String) : Option Given :=
  (split? names arguments).filter fun given => !given.isRepetitive names

example : given? { flags := ["b"], valued := ["a"] } ["--a=1", "x", "--b", "--", "--a"] =
    some { options := [("a", some "1"), ("b", none)], operands := ["x", "--a"] } := by
  decide +kernel

/-! ## Commands -/

def uint64? (text : String) : Option UInt64 :=
  (Text.unsignedBelow? UInt64.size text.toList).map .ofNat

def planCommand? (arguments : List String) : Option Command := do
  let given ← given?
    { flags := ["no-clean-hashes"]
      valued :=
        [ "repo-root", "artifacts-dir", "report", "program", "out-dir", "stub-policy", "indent",
          "newline", "max-files", "max-classes" ]
      repeatable := ["report"] } arguments
  let policy ← given.value? "stub-policy" StubPolicy.ofName?
  let indent ← given.value? "indent" some
  let newline ← given.value? "newline" NewlineStyle.ofLabel?
  let maxFiles ← given.value? "max-files" uint64?
  let maxClasses ← given.value? "max-classes" uint64?
  if given.operands.isEmpty then
    some <| .plan
      { root := (given.path? "repo-root").getD ⟨"."⟩
        artifacts := given.path? "artifacts-dir"
        reports := (given.values "report").map Path.mk
        program := given.path? "program"
        output := given.path? "out-dir"
        overrides := { policy, indent, newline, skipHashes := given.flag "no-clean-hashes" }
        maxFiles
        maxClasses }
  else none

def applyCommand? (arguments : List String) : Option Command := do
  let given ← given?
    { flags := ["apply"], valued := ["repo-root", "out-dir", "indent", "newline"] } arguments
  let indent ← given.value? "indent" some
  let newline ← given.value? "newline" NewlineStyle.ofLabel?
  if given.operands.isEmpty then
    some <| .apply
      { root := (given.path? "repo-root").getD ⟨"."⟩
        output := given.path? "out-dir"
        write := given.flag "apply"
        overrides := { indent, newline } }
  else none

def explainCommand? (arguments : List String) : Option Command := do
  let given ← given? {} arguments
  match given.operands with
  | [] => some (.explain none)
  | [query] => some (.explain (some query))
  | _ => none

/-- A short request for the version may have anything behind it. -/
def asksVersion (argument : String) : Bool :=
  argument = "--version" || "-V".toList.isPrefixOf argument.toList

def parse? : List String → Option Command
  | "plan" :: arguments => planCommand? arguments
  | "apply" :: arguments => applyCommand? arguments
  | "explain" :: arguments => explainCommand? arguments
  | argument :: _ => if asksVersion argument then some .version else none
  | [] => none

end Command

end MemberStubs
