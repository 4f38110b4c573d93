import MemberStubs.Edit
import MemberStubs.Member

namespace MemberStubs

/-! A snapshot of a program: where its classes stand, what they extend and what they declare. -/

/-- The bytes from `start` up to, but without, `stop`. -/
structure Span where
  start : UInt64 := 0
  stop : UInt64 := 0
  deriving DecidableEq, Repr, Inhabited

namespace Span

def contains (span : Span) (position : UInt64) : Bool :=
  span.start ≤ position && position < span.stop

/-- A span that ends before it starts has no length. -/
def length (span : Span) : Nat :=
  span.stop.toNat - span.start.toNat

end Span

inductive ClassForm where
  | declaration
  | expression
  /-- An interface, an enumeration, or whatever else a snapshot chose to hold. -/
  | other
  deriving DecidableEq, Repr, Inhabited

/-- A type by name with its type arguments, such as `Repo<User, number>`. -/
structure TypeRef where
  name : String
  arguments : List String := []
  deriving DecidableEq, Repr, Inhabited

def TypeRef.text (type : TypeRef) : String :=
  if type.arguments.isEmpty then type.name
  else s!"{type.name}<" ++ ", ".intercalate type.arguments ++ ">"

structure ClassDecl where
  name : Option String := none
  form : ClassForm := .declaration
  isAbstract : Bool := false
  span : Span := {}
  /-- The name, or the `class` keyword of a class expression. -/
  nameSpan : Span := {}
  openBrace : UInt64 := 0
  typeParameters : List TypeParameter := []
  bases : List TypeRef := []
  members : List Member := []
  deriving DecidableEq, Repr, Inhabited

namespace ClassDecl

def isClass (decl : ClassDecl) : Bool :=
  decl.form = .declaration || decl.form = .expression

def declares (decl : ClassDecl) (name : String) : Bool :=
  decl.members.any fun member => member.name = name

end ClassDecl

structure SourceFile where
  path : Path
  classes : List ClassDecl := []
  deriving DecidableEq, Repr, Inhabited

structure Snapshot where
  schema : String := "absfix.snapshot.v1"
  files : List SourceFile := []
  /-- Classes whose source is not part of the program. -/
  externals : List ClassDecl := []
  deriving DecidableEq, Repr, Inhabited

def Snapshot.file? (snapshot : Snapshot) (path : Path) : Option SourceFile :=
  snapshot.files.find? fun file => file.path.sameFile path

/-! ## Absorbing edits

A stub that has been inserted is a declared member of its class. Only its kind is known, so its
signature stays blank. A step answers the new declaration and how many members it gained. -/

def StubKind.declaredShape : StubKind → MemberShape
  | .method => .method [] [] none
  | .property => .property none
  | .getter => .getter none
  | .setter => .setter { name := "value" }
  | .accessorPair => .accessorPair none { name := "value" }

def ClassDecl.absorbStub (decl : ClassDecl) (stub : Stub) : ClassDecl :=
  if decl.declares stub.name then decl
  else
    { decl with
      members := decl.members ++ [{ name := stub.name, shape := stub.kind.declaredShape }] }

def ClassDecl.absorb (decl : ClassDecl) (stubs : List Stub) : ClassDecl × Nat :=
  let absorbed := stubs.foldl absorbStub decl
  (absorbed, absorbed.members.length - decl.members.length)

/-- Changes the first element that satisfies a test, and answers what the change reports. -/
def modifyFirst (test : α → Bool) (change : α → α × Nat) : List α → List α × Nat
  | [] => ([], 0)
  | value :: values =>
      if test value then
        let (changed, count) := change value
        (changed :: values, count)
      else
        let (rest, count) := modifyFirst test change values
        (value :: rest, count)

def SourceFile.absorbClass (file : SourceFile) (edit : ClassEdit) : SourceFile × Nat :=
  let (classes, count) := modifyFirst (fun decl => decl.span.start = edit.key.start)
    (fun decl => decl.absorb edit.stubs) file.classes
  ({ file with classes }, count)

def SourceFile.absorb (file : SourceFile) (edits : List ClassEdit) : SourceFile × Nat :=
  edits.foldl (fun (current, count) edit =>
    let (next, gained) := current.absorbClass edit
    (next, count + gained)) (file, 0)

namespace Snapshot

def absorbFile (snapshot : Snapshot) (edit : FileEdit) : Snapshot × Nat :=
  let (files, count) := modifyFirst (fun file => file.path.sameFile edit.path)
    (fun file => file.absorb edit.classes) snapshot.files
  ({ snapshot with files }, count)

/-- Declares every stub of the edits that its class does not declare yet, and counts them. -/
def absorb (snapshot : Snapshot) (edits : EditSet) : Snapshot × Nat :=
  edits.files.foldl (fun (current, count) edit =>
    let (next, gained) := current.absorbFile edit
    (next, count + gained)) (snapshot, 0)

end Snapshot

end MemberStubs
