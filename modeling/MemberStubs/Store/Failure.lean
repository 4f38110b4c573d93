import MemberStubs.Explain.Topic
import MemberStubs.Path
import MemberStubs.Settings.Indent

namespace MemberStubs

/-! Why a command fails, and what it was doing at the time. -/

inductive FailureCause where
  | cannotRead (path : Path)
  | cannotWrite (path : Path)
  | cannotMakeDirectory (path : Path)
  | malformedDocument
  | malformedPattern (pattern : String)
  | invalidIndent (invalid : InvalidIndent)
  | unknownTopic (unknown : UnknownTopic)
  deriving DecidableEq, Repr

def FailureCause.message : FailureCause → String
  | .cannotRead path => s!"failed to read file {inApostrophes path.text}"
  | .cannotWrite path => s!"failed to write file {inApostrophes path.text}"
  | .cannotMakeDirectory path => s!"failed to create directory {inApostrophes path.text}"
  | .malformedDocument => "malformed document"
  | .malformedPattern pattern => s!"Pattern syntax error in {inApostrophes pattern}"
  | .invalidIndent invalid => invalid.message
  | .unknownTopic unknown => unknown.message
where
  inApostrophes (text : String) : String := "'" ++ text ++ "'"

/-- The context names the steps that failed, the outermost one first. -/
structure Failure where
  context : List String := []
  cause : FailureCause
  deriving DecidableEq, Repr

namespace Failure

def message (failure : Failure) : String :=
  ": ".intercalate (failure.context ++ [failure.cause.message])

def addContext (step : String) (failure : Failure) : Failure :=
  { failure with context := step :: failure.context }

end Failure

/-- Results of a command that may fail. -/
abbrev Attempt (m : Type → Type) := ExceptT Failure m

namespace Attempt

def fail [Monad m] (cause : FailureCause) : Attempt m α :=
  throw { cause }

/-- Names the step that an action is. -/
def during [Monad m] (step : String) (action : Attempt m α) : Attempt m α :=
  ExceptT.mk do
    let result ← action.run
    pure (result.mapError (Failure.addContext step))

def ofExcept [Monad m] (cause : ε → FailureCause) : Except ε α → Attempt m α
  | .ok value => pure value
  | .error error => fail (cause error)

end Attempt

end MemberStubs
