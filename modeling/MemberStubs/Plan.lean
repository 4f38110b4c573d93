import MemberStubs.Edit

namespace MemberStubs

/-! A plan: the edits, and all that is needed to review them. -/

structure PlanInput where
  path : String
  schema : Option String := none
  tool : Option String := none
  deriving DecidableEq, Repr, Inhabited

structure PlanPolicy where
  stubPolicy : StubPolicy := .throwStub
  requireCleanHashes : Bool := false
  maxFiles : Option UInt64 := none
  maxClasses : Option UInt64 := none
  deriving DecidableEq, Repr, Inhabited

structure PlanSummary where
  diagnosticsTotal : UInt64 := 0
  diagnosticsIgnored : UInt64 := 0
  filesTouched : UInt64 := 0
  classesRepaired : UInt64 := 0
  stubsTotal : UInt64 := 0
  membersSkipped : UInt64 := 0
  classesFailed : UInt64 := 0
  patchBytes : Option UInt64 := none
  deriving DecidableEq, Repr, Inhabited

structure UnrepairedClass where
  diagnostic : DiagnosticRef
  className : Option String := none
  reasonToken : String
  reason : String
  deriving DecidableEq, Repr, Inhabited

structure RepairPlan where
  schema : String := "absfix.plan.v1"
  tool : Tool
  inputs : List PlanInput := []
  policy : PlanPolicy
  edits : EditSet
  failures : List UnrepairedClass := []
  blocked : Bool := false
  blockedReason : Option String := none
  blockedReasonToken : Option String := none
  summary : PlanSummary
  deriving DecidableEq, Repr, Inhabited

end MemberStubs
