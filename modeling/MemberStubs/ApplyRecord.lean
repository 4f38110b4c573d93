import MemberStubs.Diagnostic
import MemberStubs.Timestamp

namespace MemberStubs

/-! The record of an application of edits, one result for each file. -/

inductive ApplyStatus where
  | applied
  | blocked
  | failed
  | skipped
  deriving DecidableEq, Repr, Inhabited

def ApplyStatus.label : ApplyStatus → String
  | .applied => "applied"
  | .blocked => "blocked"
  | .failed => "failed"
  | .skipped => "skipped"

structure FileResult where
  path : String
  status : ApplyStatus
  message : Option String := none
  classes : UInt64
  stubsInserted : UInt64
  sha256Before : Option String := none
  sha256After : Option String := none
  deriving DecidableEq, Repr, Inhabited

structure HashMismatch where
  path : String
  expected : String
  actual : String
  deriving DecidableEq, Repr, Inhabited

structure Preconditions where
  verified : Bool := false
  mismatches : List HashMismatch := []
  deriving DecidableEq, Repr, Inhabited

structure ApplySummary where
  attempted : UInt64 := 0
  applied : UInt64 := 0
  blocked : UInt64 := 0
  failed : UInt64 := 0
  filesModified : UInt64 := 0
  deriving DecidableEq, Repr, Inhabited

/-- A record that is not `applied` is one of a dry run. -/
structure ApplyRecord where
  schema : String := "absfix.apply.v1"
  tool : Tool
  applied : Bool := false
  preconditions : Preconditions := {}
  results : List FileResult := []
  summary : ApplySummary := {}
  endedAt : Option Timestamp := none
  deriving DecidableEq, Repr, Inhabited

end MemberStubs
