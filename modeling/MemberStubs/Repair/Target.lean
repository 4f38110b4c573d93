import MemberStubs.Repair.Error
import MemberStubs.Snapshot

namespace MemberStubs

/-! A class to be repaired, as it stands in its file. -/

/-! Names in order, each one once. -/

def insertName (name : String) : List String → List String
  | [] => [name]
  | first :: names =>
      if name < first then name :: first :: names
      else if name = first then first :: names
      else first :: insertName name names

def nameSet (names : List String) : List String :=
  names.foldl (fun set name => insertName name set) []

example : nameSet ["b", "a", "b"] = ["a", "b"] := by decide +kernel

structure ClassTarget where
  key : ClassKey
  name : Option String
  anchor : Anchor
  bases : List TypeRef
  declared : List String
  deriving DecidableEq, Repr

namespace ClassTarget

def ofDecl (file : Path) (decl : ClassDecl) : ClassTarget :=
  { key := ⟨file, decl.span.start⟩
    name := decl.name
    anchor := .behindBrace decl.openBrace
    bases := decl.bases
    declared := nameSet (decl.members.map Member.name) }

def displayName (target : ClassTarget) : String :=
  target.name.getD s!"class expression at {target.key.text}"

def declares (target : ClassTarget) (name : String) : Bool :=
  target.declared.contains name

def fault (target : ClassTarget) (fault : HeritageFault) : RepairError :=
  .unresolvableBase target.displayName fault

def singleBase (target : ClassTarget) : Except RepairError TypeRef :=
  match target.bases with
  | [base] => .ok base
  | [] => .error (target.fault .noBase)
  | bases => .error (target.fault (.severalBases bases.length))

end ClassTarget

end MemberStubs
