import MemberStubs.Plan

namespace MemberStubs

/-! A plan as a page in Markdown. Every line of the page ends with a line feed. -/

/-- Lines joined into a text. -/
def pageText (lines : List String) : String :=
  String.join (lines.map (· ++ "\n"))

def inCode (text : String) : String :=
  s!"\x60{text}\x60"

def StubKind.pageLabel : StubKind → String
  | .method => "method"
  | .property => "property"
  | .getter => "get accessor"
  | .setter => "set accessor"
  | .accessorPair => "get/set accessor"

namespace DiagnosticRef

def codeLabel (trigger : DiagnosticRef) : String :=
  s!"TS{trigger.code}@{trigger.start}"

end DiagnosticRef

def ClassEdit.pageLines (number : Nat) (file : Path) (edit : ClassEdit) : List String :=
  [ s!"### {number}. {edit.displayName}", "", "- File: " ++ inCode file.text,
    s!"- Declaration at: {edit.key.start}", s!"- Insert at: {edit.anchor.position}" ] ++
  (if edit.triggers.isEmpty then []
    else ["- Diagnostics: " ++ ", ".intercalate (edit.triggers.map DiagnosticRef.codeLabel)]) ++
  ["", "**Stubs**", ""] ++
  (edit.stubs.map fun stub => s!"- {inCode stub.name} ({stub.kind.pageLabel})") ++
  (if edit.skipped.isEmpty then []
    else
      ["", "**Skipped**", ""] ++
        edit.skipped.map fun member => s!"- {inCode member.name}: {member.reason}") ++
  [""]

namespace UnrepairedClass

def pageLine (failure : UnrepairedClass) : String :=
  let name := inCode (failure.className.getD "-")
  let place := inCode s!"{failure.diagnostic.file}:{failure.diagnostic.start}"
  s!"- {name} at {place} ({inCode failure.reasonToken}): {failure.reason}"

end UnrepairedClass

namespace RepairPlan

def summaryLines (plan : RepairPlan) : List String :=
  let summary := plan.summary
  [ "# absfix plan", "", "- Stub policy: " ++ inCode plan.policy.stubPolicy.label,
    s!"- Diagnostics: {summary.diagnosticsTotal} (ignored {summary.diagnosticsIgnored})",
    s!"- Classes repaired: {summary.classesRepaired} ({summary.stubsTotal} stubs, " ++
      s!"{summary.membersSkipped} members skipped)",
    s!"- Classes failed: {summary.classesFailed}", s!"- Files touched: {summary.filesTouched}" ] ++
  (summary.patchBytes.map fun bytes => s!"- Patch bytes: {bytes}").toList ++
  [s!"- Inputs: {plan.inputs.length}", ""]

def blockedLines (plan : RepairPlan) : List String :=
  if plan.blocked then
    let token := inCode (plan.blockedReasonToken.getD "-")
    [s!"**Blocked** ({token}): " ++ plan.blockedReason.getD "no reason given", ""]
  else []

/-- Every class edit with the path of its file. -/
def placedClasses (plan : RepairPlan) : List (Path × ClassEdit) :=
  plan.edits.files.flatMap fun file => file.classes.map fun edit => (file.path, edit)

def classLines (plan : RepairPlan) : List String :=
  ["## Classes", ""] ++ (if plan.edits.isEmpty then ["_No classes to repair._"] else []) ++
  (plan.placedClasses.mapIdx fun index (path, edit) => edit.pageLines (index + 1) path).flatten

def failureLines (plan : RepairPlan) : List String :=
  if plan.failures.isEmpty then []
  else ["", "## Unrepaired", ""] ++ plan.failures.map UnrepairedClass.pageLine

def page (plan : RepairPlan) : String :=
  pageText (plan.summaryLines ++ plan.blockedLines ++ plan.classLines ++ plan.failureLines)

end RepairPlan

end MemberStubs
