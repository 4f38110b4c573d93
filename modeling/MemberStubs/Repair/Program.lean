import Std.Data.HashMap
import MemberStubs.MemberTable
import MemberStubs.Repair.Target
import MemberStubs.Substitution

namespace MemberStubs

/-! A program is a snapshot whose declarations can be found by name. A name stands for the first
declaration that bears it, and files come before externals. -/

inductive DeclPlace where
  | file (file decl : Nat)
  | external (decl : Nat)
  deriving DecidableEq, Repr

structure Program where
  snapshot : Snapshot
  index : Std.HashMap String DeclPlace

namespace Program

def placesInFile (fileIndex : Nat) (file : SourceFile) : List (Option String × DeclPlace) :=
  file.classes.mapIdx fun declIndex decl => (decl.name, .file fileIndex declIndex)

def places (snapshot : Snapshot) : List (Option String × DeclPlace) :=
  (snapshot.files.mapIdx placesInFile).flatten ++
    snapshot.externals.mapIdx fun declIndex decl => (decl.name, .external declIndex)

def addPlace (index : Std.HashMap String DeclPlace) :
    Option String × DeclPlace → Std.HashMap String DeclPlace
  | (some name, place) => index.insertIfNew name place
  | (none, _) => index

def ofSnapshot (snapshot : Snapshot) : Program :=
  ⟨snapshot, (places snapshot).foldl addPlace ∅⟩

def declAt? (snapshot : Snapshot) : DeclPlace → Option ClassDecl
  | .file file decl => snapshot.files[file]?.bind fun source => source.classes[decl]?
  | .external decl => snapshot.externals[decl]?

def lookup? (program : Program) (name : String) : Option ClassDecl :=
  program.index[name]?.bind (declAt? program.snapshot)

/-- The names that stand for a declaration. -/
def names (program : Program) : List String :=
  program.index.keys

/-- Absorbing changes no name and moves no declaration, so the index stays as it is. -/
def absorb (program : Program) (edits : EditSet) : Program × Nat :=
  let (snapshot, count) := program.snapshot.absorb edits
  ({ program with snapshot }, count)

/-! ## Finding a class by position -/

/-- The declaration with the shortest span, the first one of several. -/
def innermost? : List ClassDecl → Option ClassDecl
  | [] => none
  | decl :: decls =>
      match innermost? decls with
      | none => some decl
      | some inner => if inner.span.length < decl.span.length then some inner else some decl

def declAtName? (program : Program) (file : Path) (position : UInt64) : Option ClassDecl := do
  let source ← program.snapshot.file? file
  let decl ← innermost? (source.classes.filter fun decl => decl.nameSpan.contains position)
  if decl.isClass then some decl else none

def findClassAt (program : Program) (file : Path) (position : UInt64) :
    Except RepairError ClassTarget :=
  match program.declAtName? file position with
  | some decl => .ok (.ofDecl file decl)
  | none => .error (.notAClass file position)

/-! ## Members of a base -/

def baseType (program : Program) (target : ClassTarget) : Except RepairError TypeRef := do
  let base ← target.singleBase
  match program.lookup? base.name with
  | some decl =>
      if decl.isClass then .ok base else .error (target.fault (.notAClass base.name))
  | none => .error (target.fault (.unknownBase base.name))

def substitutionFor (decl : ClassDecl) (type : TypeRef) : Substitution :=
  .bind decl.typeParameters type.arguments

/-- The members that one declaration brings in, with its type arguments in place. -/
def levelOf (decl : ClassDecl) (type : TypeRef) : MemberTable :=
  .ofDeclaration (decl.members.map (substitutionFor decl type).member)

def parentType (decl : ClassDecl) (type : TypeRef) (parent : TypeRef) : TypeRef :=
  { parent with arguments := parent.arguments.map (substitutionFor decl type).apply }

/-- The levels of the chain that starts with a type, the nearest first. A name that has been left
behind is no longer in `unvisited`, so the walk ends. -/
def levelsFrom (program : Program) (unvisited : List String) (type : TypeRef) :
    Except HeritageFault (List MemberTable) :=
  match program.lookup? type.name with
  | none => .error (.unknownBase type.name)
  | some decl =>
      if _visit : type.name ∈ unvisited then
        if decl.isClass then
          match decl.bases with
          | [] => .ok [levelOf decl type]
          | [parent] =>
              match program.levelsFrom (unvisited.erase type.name) (parentType decl type parent) with
              | .ok above => .ok (levelOf decl type :: above)
              | .error fault => .error fault
          | parents => .error (.branching type.name parents.length)
        else .error (.notAClass type.name)
      else .error (.circular type.name)
termination_by unvisited.length
decreasing_by
  have := List.length_pos_of_mem _visit
  rw [List.length_erase_of_mem _visit]
  omega

def membersOf (program : Program) (type : TypeRef) : Except RepairError MemberTable :=
  match program.levelsFrom program.names type with
  | .ok levels => .ok (levels.foldl MemberTable.inherit .empty)
  | .error fault => .error (.unresolvableBase type.text fault)

end Program

end MemberStubs
