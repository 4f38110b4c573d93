import MemberStubs.Diagnostic
import MemberStubs.Text.Blank

namespace MemberStubs

/-! Edits: the stubs to insert, class by class and file by file. -/

/-- A class is known by its file and by the offset where its declaration starts. -/
structure ClassKey where
  file : Path
  start : UInt64
  deriving DecidableEq, Repr, Inhabited

def ClassKey.text (key : ClassKey) : String :=
  s!"{key.file.text}@{key.start.toNat}"

/-- A place in a file right behind the brace that opens a class body. -/
structure Anchor where
  position : UInt64
  deriving DecidableEq, Repr, Inhabited

/-- The greatest offset has no successor and stands for itself. -/
def Anchor.behindBrace (brace : UInt64) : Anchor :=
  ⟨if brace.toNat + 1 < UInt64.size then brace + 1 else brace⟩

/-! What the body of a stub holds: a statement that throws, a least value of the declared type, or
a comment that marks the work to do. -/

inductive StubPolicy where
  | throwStub
  | typeDefault
  | commentMarker
  deriving DecidableEq, Repr, Inhabited

namespace StubPolicy

def label : StubPolicy → String
  | .throwStub => "throw_stub"
  | .typeDefault => "type_default"
  | .commentMarker => "comment_marker"

def all : List StubPolicy := [.throwStub, .typeDefault, .commentMarker]

/-- How a name of a policy is compared: without blanks around it, in lower case, and with
underscores for hyphens. -/
def normalizedName (text : String) : String :=
  String.ofList ((Text.trim text.toList).map fun c => if c = '-' then '_' else c.toLower)

def ofNormalizedName? (name : String) : Option StubPolicy :=
  if name = "throw_stub" ∨ name = "throw" then some .throwStub
  else if name = "type_default" ∨ name = "default" then some .typeDefault
  else if name = "comment_marker" ∨ name = "comment" then some .commentMarker
  else none

def ofName? (text : String) : Option StubPolicy :=
  ofNormalizedName? (normalizedName text)

end StubPolicy

/-- A text that names no stub policy. -/
structure UnknownPolicy where
  text : String

def UnknownPolicy.message (unknown : UnknownPolicy) : String :=
  s!"unknown stub policy: {StubPolicy.normalizedName unknown.text}"

inductive StubKind where
  | method
  | property
  | getter
  | setter
  | accessorPair
  deriving DecidableEq, Repr, Inhabited

/-- The text of a stub has no indent of its own, and line feeds between its lines. -/
structure Stub where
  name : String
  kind : StubKind
  text : String
  deriving DecidableEq, Repr, Inhabited

/-- A member that is owed and that no stub could be written for. -/
structure SkippedMember where
  name : String
  reason : String
  deriving DecidableEq, Repr, Inhabited

structure ClassEdit where
  id : String
  key : ClassKey
  name : Option String
  anchor : Anchor
  stubs : List Stub
  skipped : List SkippedMember := []
  triggers : List DiagnosticRef := []
  deriving DecidableEq, Repr, Inhabited

namespace ClassEdit

def displayName (edit : ClassEdit) : String :=
  edit.name.getD "(anonymous class)"

def memberNames (edit : ClassEdit) : List String :=
  edit.stubs.map Stub.name

/-- What is inserted for the class, before it is laid out. -/
def block (edit : ClassEdit) : String :=
  "\n".intercalate (edit.stubs.map Stub.text)

end ClassEdit

/-- The digest, if there is one, is that of the file the edit was computed for. -/
structure FileEdit where
  path : Path
  sha256 : Option String := none
  classes : List ClassEdit
  deriving DecidableEq, Repr, Inhabited

def FileEdit.stubCount (edit : FileEdit) : Nat :=
  (edit.classes.flatMap ClassEdit.stubs).length

structure EditSet where
  schema : String := "absfix.edits.v1"
  files : List FileEdit := []
  deriving DecidableEq, Repr, Inhabited

namespace EditSet

def empty : EditSet := {}

def isEmpty (edits : EditSet) : Bool :=
  edits.files.all fun file => file.classes.isEmpty

def file? (edits : EditSet) (path : Path) : Option FileEdit :=
  edits.files.find? fun file => file.path.sameFile path

def classes (edits : EditSet) : List ClassEdit :=
  edits.files.flatMap FileEdit.classes

def classCount (edits : EditSet) : Nat :=
  edits.classes.length

def stubCount (edits : EditSet) : Nat :=
  (edits.classes.flatMap ClassEdit.stubs).length

def skippedCount (edits : EditSet) : Nat :=
  (edits.classes.flatMap ClassEdit.skipped).length

end EditSet

/-- How inserted lines are laid out in a file. -/
structure Layout where
  newline : String := "\n"
  indentUnit : String := "    "
  deriving DecidableEq, Repr, Inhabited

end MemberStubs
