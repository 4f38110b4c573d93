import MemberStubs.Edit
import MemberStubs.Text.Digits

namespace MemberStubs

/-! What can be explained: the repair itself, and each stub policy. -/

inductive Topic where
  | repair
  | policy (policy : StubPolicy)
  deriving DecidableEq, Repr

namespace Topic

def repairKey : String := "missing-abstract-member"

def repairTitle : String := "Implement Inherited Abstract Members"

def names : List String := [repairKey, "throw-stub", "type-default", "comment-marker"]

/-- How a query is compared: without blanks around it, in lower case, and with hyphens for
underscores. -/
def normalizedQuery (query : String) : List Char :=
  (Text.trim query.toList).map fun c => if c = '_' then '-' else c.toLower

def withoutMark : List Char → List Char
  | 't' :: 's' :: rest => rest
  | query => query

/-- A diagnostic code may be written with the letters that compilers put before it. -/
def isRecognizedCode (query : List Char) : Bool :=
  (Text.unsignedBelow? UInt32.size (withoutMark query)).any fun code =>
    DiagnosticCode.recognized.contains (.ofNat code)

def ofQuery? (query : String) : Option Topic :=
  let normalized := normalizedQuery query
  if normalized = repairKey.toList ∨ normalized = "fix".toList then some .repair
  else if isRecognizedCode normalized then some .repair
  else (StubPolicy.ofName? (String.ofList normalized)).map .policy

example : ofQuery? " TS02515 " = some .repair := by decide +kernel

example : ofQuery? "Throw_Stub" = some (.policy .throwStub) := by decide +kernel

end Topic

/-- A query that stands for no topic. -/
structure UnknownTopic where
  query : String
  deriving DecidableEq, Repr

def UnknownTopic.message (unknown : UnknownTopic) : String :=
  s!"Unknown topic: '{unknown.query}'\n\nAvailable topics: " ++ ", ".intercalate Topic.names

end MemberStubs
