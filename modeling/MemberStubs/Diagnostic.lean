import MemberStubs.Path

namespace MemberStubs

/-! What a compiler reports. Two codes say that a class leaves an inherited abstract member without
an implementation: one for a class declaration, one for a class expression. -/

namespace DiagnosticCode

def missingInClass : UInt32 := 2515

def missingInClassExpression : UInt32 := 2653

def recognized : List UInt32 := [missingInClass, missingInClassExpression]

end DiagnosticCode

inductive Severity where
  | error
  | warning
  | suggestion
  | message
  deriving DecidableEq, Repr, Inhabited

structure Tool where
  name : String
  version : Option String := none
  deriving DecidableEq, Repr, Inhabited

structure DiagnosticRef where
  code : UInt32
  file : Path
  start : UInt64
  deriving DecidableEq, Repr, Inhabited

/-- For the recognized codes, `start` is the offset of the name of the class, or of its `class`
keyword if it is an expression. -/
structure Diagnostic where
  code : UInt32
  file : Path
  start : UInt64
  length : UInt64 := 0
  category : Severity := .error
  message : Option String := none
  deriving DecidableEq, Repr, Inhabited

namespace Diagnostic

def isRecognized (diagnostic : Diagnostic) : Bool :=
  DiagnosticCode.recognized.contains diagnostic.code

def toRef (diagnostic : Diagnostic) : DiagnosticRef :=
  ⟨diagnostic.code, diagnostic.file, diagnostic.start⟩

end Diagnostic

structure DiagnosticReport where
  schema : String
  tool : Tool
  diagnostics : List Diagnostic := []
  deriving DecidableEq, Repr, Inhabited

end MemberStubs
