import MemberStubs.Diagnostic
import MemberStubs.Plan
import MemberStubs.Stub.Synthesis

namespace MemberStubs

/-! Why a class stays unrepaired. -/

inductive HeritageFault where
  | noBase
  | severalBases (count : Nat)
  | unknownBase (name : String)
  | notAClass (name : String)
  /-- A class is met a second time on the way up. -/
  | circular (name : String)
  /-- A class on the way up has more than one base. -/
  | branching (name : String) (count : Nat)
  deriving DecidableEq, Repr

def HeritageFault.message : HeritageFault → String
  | .noBase => "class has no extends clause"
  | .severalBases count => s!"expected a single base class, found {count}"
  | .unknownBase name => s!"unknown base type \x60{name}\x60"
  | .notAClass name => s!"base type \x60{name}\x60 is not a class"
  | .circular name => s!"circular heritage through \x60{name}\x60"
  | .branching name count => s!"\x60{name}\x60 extends {count} types"

/-- The subject is the class or the type that was asked for. -/
inductive RepairError where
  | notAClass (file : Path) (position : UInt64)
  | unresolvableBase (subject : String) (fault : HeritageFault)
  | noSupportedMembers (subject : String) (unsupported : List UnsupportedShape)
  deriving DecidableEq, Repr

namespace RepairError

def message : RepairError → String
  | .notAClass file position => s!"no class-like declaration at {file}:{position}"
  | .unresolvableBase subject fault => s!"cannot resolve base type of {subject}: {fault.message}"
  | .noSupportedMembers subject unsupported =>
      s!"none of the {unsupported.length} owed members of {subject} could be synthesized"

def token : RepairError → String
  | .notAClass .. => "not_a_class"
  | .unresolvableBase .. => "unresolvable_base_type"
  | .noSupportedMembers .. => "no_supported_members"

end RepairError

structure ClassFailure where
  diagnostic : Diagnostic
  className : Option String
  error : RepairError
  deriving DecidableEq, Repr

def ClassFailure.toUnrepaired (failure : ClassFailure) : UnrepairedClass :=
  { diagnostic := failure.diagnostic.toRef
    className := failure.className
    reasonToken := failure.error.token
    reason := failure.error.message }

end MemberStubs
