import MemberStubs.Explain.Topic
import MemberStubs.Review.PlanPage

namespace MemberStubs

/-! The pages that explain a topic. -/

namespace StubPolicy

def meaning : StubPolicy → List String
  | .throwStub =>
      [ "THROW_STUB (default) fills every body and accessor with",
        "`throw new Error(\"Method not implemented.\");`.",
        "Properties are declared without an initializer." ]
  | .typeDefault =>
      [ "TYPE_DEFAULT returns a minimal value of the declared type where one is knowable:",
        "`0` for number, `\"\"` for string, `false` for boolean, `[]` for arrays,",
        "`undefined` for optional or union-with-undefined types, nothing for void.",
        "Other types fall back to the throw stub." ]
  | .commentMarker =>
      [ "COMMENT_MARKER writes a `// TODO: implement <name>` marker in each body.",
        "Bodies that must produce a value also keep the throw stub so the result",
        "still type-checks." ]

end StubPolicy

namespace Topic

def doubleRule : String := String.ofList (List.replicate 80 '=')

def rule : String := String.ofList (List.replicate 80 '-')

def description : List String :=
  [ "Adds stub declarations for every abstract member a concrete class inherits",
    "but does not implement.",
    "",
    "For each reported class absfix resolves the instantiated base type, collects",
    "its abstract members across the whole inheritance chain, drops private members",
    "and members the class already declares, and writes one block of stubs right",
    "after the class body's opening brace. Generic parameters of the base are",
    "substituted with the class's type arguments.",
    "",
    "Example transformation:",
    "    class Circle extends Shape \x7b",
    "    \x7d",
    "becomes:",
    "    class Circle extends Shape \x7b",
    "        area(): number \x7b",
    "            throw new Error(\"Method not implemented.\");",
    "        \x7d",
    "        get name(): string \x7b",
    "            throw new Error(\"Method not implemented.\");",
    "        \x7d",
    "    \x7d" ]

def safety : List String :=
  [ "The edit is insertion-only:",
    "- Existing text is never modified or removed",
    "- Each class receives at most one contiguous block, however many diagnostics point at it",
    "- Members the class already declares are never re-added, so re-running is a no-op",
    "- Plans record the sha256 of each file and apply refuses files that changed since" ]

def remediation : List String :=
  [ "Classes absfix could not repair are listed under \"Unrepaired\" in plan.md:",
    "- not_a_class: the diagnostic does not point at a class declaration or expression",
    "- unresolvable_base_type: the base is missing, not a class, has several bases,",
    "  or the heritage chain is circular; fix the extends clause first",
    "- no_supported_members: every owed member has a shape absfix cannot stub",
    "  (index signatures, constructors); implement those by hand" ]

def codeNames : List String :=
  DiagnosticCode.recognized.map fun code => s!"TS{code}"

def part (title : String) (lines : List String) : List String :=
  [title, rule] ++ lines ++ [""]

def repairLines : List String :=
  [ doubleRule, "FIX: " ++ repairTitle, doubleRule, "", "Key:     " ++ repairKey,
    "Codes:   " ++ ", ".intercalate codeNames, "" ] ++
  part "DESCRIPTION" description ++ part "SAFETY RATIONALE" safety ++
  ["STUB POLICIES", rule] ++ (StubPolicy.all.flatMap fun each => each.meaning ++ [""]) ++
  part "REMEDIATION GUIDANCE" remediation

def policyLines (chosen : StubPolicy) : List String :=
  [s!"STUB POLICY: {chosen.label}", rule] ++ chosen.meaning ++
  [ "", "Select it with " ++ inCode s!"--stub-policy {chosen.label}" ++ " or in absfix.toml:", "",
    "    [stubs]", s!"    policy = \"{chosen.label}\"" ]

def page : Topic → String
  | .repair => pageText repairLines
  | .policy chosen => pageText (policyLines chosen)

def meaningText (chosen : StubPolicy) : String :=
  "\n".intercalate chosen.meaning

end Topic

end MemberStubs
