import MemberStubs.Digest.NameId
import MemberStubs.Repair.Program

namespace MemberStubs

/-! Repair of one class: which members it owes, and the edit that supplies them. -/

/-- What repair has to know about types. -/
structure TypeModel where
  baseType : ClassTarget → Except RepairError TypeRef
  membersOf : TypeRef → Except RepairError MemberTable

namespace TypeModel

/-- The model in which every class has the same inherited members. -/
def constant (table : MemberTable) : TypeModel where
  baseType target := .ok (target.bases.head?.getD ⟨"", []⟩)
  membersOf _ := .ok table

end TypeModel

def Program.typeModel (program : Program) : TypeModel :=
  ⟨program.baseType, program.membersOf⟩

structure Candidates where
  base : TypeRef
  members : List Member
  deriving DecidableEq, Repr

namespace TypeModel

/-- The members that a class owes: its base leaves them abstract and it does not declare them. -/
def candidates (model : TypeModel) (target : ClassTarget) : Except RepairError Candidates := do
  let _ ← target.singleBase
  let base ← model.baseType target
  let table ← model.membersOf base
  .ok ⟨base, table.members.filter fun member => member.isOwed && !target.declares member.name⟩

end TypeModel

/-! An edit is identified by its class and by the members it brings. -/

def ClassEdit.namespaceBytes : List UInt8 :=
  [ 0x9a, 0x41, 0x0e, 0x7c, 0x5b, 0x2f, 0x4d, 0x13, 0xa6, 0x88, 0x31, 0xc4, 0x70, 0x1d, 0xe2, 0x5f ]

def ClassEdit.idText (key : ClassKey) (names : List String) : String :=
  s!"{key.file}|{key.start}|" ++ ",".intercalate names

def ClassEdit.idOf (key : ClassKey) (names : List String) : String :=
  Digest.nameId namespaceBytes (idText key names)

def UnsupportedShape.toSkipped (unsupported : UnsupportedShape) : SkippedMember :=
  ⟨unsupported.name, unsupported.message⟩

/-- Every member either gets a stub or is unsupported. -/
def StubStyle.partition (style : StubStyle) : List Member → List Stub × List UnsupportedShape
  | [] => ([], [])
  | member :: members =>
      let (stubs, unsupported) := style.partition members
      match style.synthesize member with
      | .ok stub => (stub :: stubs, unsupported)
      | .error shape => (stubs, shape :: unsupported)

def ClassTarget.edit (target : ClassTarget) (stubs : List Stub) (unsupported : List UnsupportedShape)
    (triggers : List DiagnosticRef) : ClassEdit :=
  { id := ClassEdit.idOf target.key (stubs.map Stub.name)
    key := target.key
    name := target.name
    anchor := target.anchor
    stubs
    skipped := unsupported.map UnsupportedShape.toSkipped
    triggers }

/-- The edit for a class, if it owes anything. -/
def repairClass (model : TypeModel) (style : StubStyle) (target : ClassTarget)
    (triggers : List DiagnosticRef) : Except RepairError (Option ClassEdit) := do
  let candidates ← model.candidates target
  if candidates.members.isEmpty then .ok none
  else
    match style.partition candidates.members with
    | ([], unsupported) => .error (.noSupportedMembers target.displayName unsupported)
    | (stubs, unsupported) => .ok (some (target.edit stubs unsupported triggers))

/-- The edit for a class as a set of its own. -/
def repairOne (model : TypeModel) (style : StubStyle) (target : ClassTarget) :
    Except RepairError (Option EditSet) :=
  (repairClass model style target []).map fun edit =>
    edit.map fun edit => { files := [{ path := target.key.file, classes := [edit] }] }

end MemberStubs
