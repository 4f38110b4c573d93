import MemberStubs.Document.Edit
import MemberStubs.Settings.Indent
import MemberStubs.Toml.Document

namespace MemberStubs

/-! What a configuration file may set, and how it goes together with what is asked for directly. -/

/-- Line ends of inserted blocks: those of the file itself, or always the same. -/
inductive NewlineStyle where
  | auto
  | lf
  | crlf
  deriving DecidableEq, Repr, Inhabited

namespace NewlineStyle

def label : NewlineStyle → String
  | .auto => "auto"
  | .lf => "lf"
  | .crlf => "crlf"

def ofLabel? : String → Option NewlineStyle
  | "auto" => some .auto
  | "lf" => some .lf
  | "crlf" => some .crlf
  | _ => none

def literal? : NewlineStyle → Option String
  | .auto => none
  | .lf => some "\n"
  | .crlf => some "\r\n"

end NewlineStyle

structure Configuration where
  policy : Option StubPolicy := none
  indent : Option String := none
  newline : Option NewlineStyle := none
  maxFiles : Option UInt64 := none
  maxClasses : Option UInt64 := none
  requireCleanHashes : Option Bool := none
  deriving DecidableEq, Repr, Inhabited

inductive ConfigurationFault where
  | malformed
  | invalidIndent (invalid : InvalidIndent)
  deriving DecidableEq, Repr

namespace Configuration

/-! ## Reading

A section is a table that has none but the expected fields, or an array of their values in order. A
choice is written as its name, or as a table that maps the name to nothing. -/

def section? (names : List String) : Toml.Value → Option Toml.Table
  | .table _ fields => if fields.all fun field => names.contains field.1 then some fields else none
  | .array items => some (names.zip items)
  | _ => none

def field? (fields : Toml.Table) (name : String) (read : Toml.Value → Option α) :
    Option (Option α) :=
  match fields.lookup name with
  | none => some none
  | some value => (read value).map some

def text? : Toml.Value → Option String
  | .text value => some value
  | _ => none

def bool? : Toml.Value → Option Bool
  | .bool value => some value
  | _ => none

def uint64? : Toml.Value → Option UInt64
  | .natural value => if value < UInt64.size then some (.ofNat value) else none
  | _ => none

def choice? : Toml.Value → Option String
  | .text name => some name
  | .table _ [(name, .table _ [])] => some name
  | .table _ [(name, .array [])] => some name
  | _ => none

def withStubs? (configuration : Configuration) (value : Toml.Value) : Option Configuration := do
  let fields ← section? ["policy", "indent", "newline"] value
  let policy ← field? fields "policy" fun value => (choice? value).bind StubPolicy.ofLabel?
  let indent ← field? fields "indent" text?
  let newline ← field? fields "newline" fun value => (choice? value).bind NewlineStyle.ofLabel?
  some { configuration with policy, indent, newline }

def withPolicy? (configuration : Configuration) (value : Toml.Value) : Option Configuration := do
  let fields ← section? ["max_files", "max_classes", "require_clean_hashes"] value
  let maxFiles ← field? fields "max_files" uint64?
  let maxClasses ← field? fields "max_classes" uint64?
  let requireCleanHashes ← field? fields "require_clean_hashes" bool?
  some { configuration with maxFiles, maxClasses, requireCleanHashes }

def withSection? (configuration : Configuration) : String × Toml.Value → Option Configuration
  | ("stubs", value) => configuration.withStubs? value
  | ("policy", value) => configuration.withPolicy? value
  | _ => none

def ofTable? (table : Toml.Table) : Option Configuration :=
  table.foldlM withSection? {}

def parse (text : String) : Except ConfigurationFault Configuration :=
  match (Toml.parse? text).bind ofTable? with
  | none => .error .malformed
  | some configuration =>
      match configuration.indent with
      | none => .ok configuration
      | some indent =>
          match checkIndent indent with
          | .ok () => .ok configuration
          | .error invalid => .error (.invalidIndent invalid)

example : (parse "[stubs]\nnewline = 'lf'\n\n[policy]\nmax_files = 1_0\n").toOption =
    some { newline := some .lf, maxFiles := some 10 } := by
  decide +kernel

end Configuration

/-! ## Settings -/

/-- What is asked for directly, ahead of any configuration. -/
structure Overrides where
  policy : Option StubPolicy := none
  indent : Option String := none
  newline : Option NewlineStyle := none
  skipHashes : Bool := false
  deriving DecidableEq, Repr, Inhabited

structure Settings where
  stubPolicy : StubPolicy := .throwStub
  indentUnit : String := "    "
  /-- Without a newline every file keeps its own. -/
  newline : Option String := none
  maxFiles : Option UInt64 := none
  maxClasses : Option UInt64 := none
  requireCleanHashes : Bool := true
  deriving DecidableEq, Repr, Inhabited

namespace Configuration

def checkOverride (overrides : Overrides) : Except InvalidIndent Unit :=
  match overrides.indent with
  | none => .ok ()
  | some indent => checkIndent indent

def merged (configuration : Configuration) (overrides : Overrides) : Settings :=
  { stubPolicy := (overrides.policy <|> configuration.policy).getD .throwStub
    indentUnit := (overrides.indent <|> configuration.indent).getD "    "
    newline := ((overrides.newline <|> configuration.newline).getD .auto).literal?
    maxFiles := configuration.maxFiles
    maxClasses := configuration.maxClasses
    requireCleanHashes := !overrides.skipHashes && configuration.requireCleanHashes.getD true }

/-- Overrides come before the configuration, and hashes that are to be skipped stay skipped. -/
def merge (configuration : Configuration) (overrides : Overrides) :
    Except InvalidIndent Settings := do
  checkOverride overrides
  .ok (configuration.merged overrides)

end Configuration

end MemberStubs
