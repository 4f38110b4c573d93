import MemberStubs.Document.Edit
import MemberStubs.Plan

namespace MemberStubs

/-! The written form of plans. -/

open Json (Fields field optionalField listField)

namespace PlanInput

def ofJson? (json : Json) : Option PlanInput := do
  let fields ← json.record? ["path", "schema", "tool"]
  let path ← fields.required? "path" Json.string?
  let schema ← fields.optional? "schema" Json.string?
  let tool ← fields.optional? "tool" Json.string?
  some { path, schema, tool }

def toJson (input : PlanInput) : Json :=
  .object <|
    field "path" (.ofString input.path) ++
    optionalField "schema" .ofString input.schema ++
    optionalField "tool" .ofString input.tool

end PlanInput

namespace PlanPolicy

def ofJson? (json : Json) : Option PlanPolicy := do
  let fields ← json.record? ["stub_policy", "require_clean_hashes", "max_files", "max_classes"]
  let stubPolicy ← fields.withDefault? "stub_policy" .throwStub StubPolicy.ofJson?
  let requireCleanHashes ← fields.withDefault? "require_clean_hashes" false Json.bool?
  let maxFiles ← fields.optional? "max_files" Json.uint64?
  let maxClasses ← fields.optional? "max_classes" Json.uint64?
  some { stubPolicy, requireCleanHashes, maxFiles, maxClasses }

def toJson (policy : PlanPolicy) : Json :=
  .object <|
    field "stub_policy" policy.stubPolicy.toJson ++
    field "require_clean_hashes" (.bool policy.requireCleanHashes) ++
    optionalField "max_files" .ofUInt64 policy.maxFiles ++
    optionalField "max_classes" .ofUInt64 policy.maxClasses

end PlanPolicy

namespace PlanSummary

def ofJson? (json : Json) : Option PlanSummary := do
  let fields ← json.record?
    ["diagnostics_total", "diagnostics_ignored", "files_touched", "classes_repaired",
      "stubs_total", "members_skipped", "classes_failed", "patch_bytes"]
  let diagnosticsTotal ← fields.required? "diagnostics_total" Json.uint64?
  let diagnosticsIgnored ← fields.required? "diagnostics_ignored" Json.uint64?
  let filesTouched ← fields.required? "files_touched" Json.uint64?
  let classesRepaired ← fields.required? "classes_repaired" Json.uint64?
  let stubsTotal ← fields.required? "stubs_total" Json.uint64?
  let membersSkipped ← fields.required? "members_skipped" Json.uint64?
  let classesFailed ← fields.required? "classes_failed" Json.uint64?
  let patchBytes ← fields.optional? "patch_bytes" Json.uint64?
  some
    { diagnosticsTotal, diagnosticsIgnored, filesTouched, classesRepaired, stubsTotal,
      membersSkipped, classesFailed, patchBytes }

def toJson (summary : PlanSummary) : Json :=
  .object <|
    field "diagnostics_total" (.ofUInt64 summary.diagnosticsTotal) ++
    field "diagnostics_ignored" (.ofUInt64 summary.diagnosticsIgnored) ++
    field "files_touched" (.ofUInt64 summary.filesTouched) ++
    field "classes_repaired" (.ofUInt64 summary.classesRepaired) ++
    field "stubs_total" (.ofUInt64 summary.stubsTotal) ++
    field "members_skipped" (.ofUInt64 summary.membersSkipped) ++
    field "classes_failed" (.ofUInt64 summary.classesFailed) ++
    optionalField "patch_bytes" .ofUInt64 summary.patchBytes

end PlanSummary

namespace UnrepairedClass

def ofJson? (json : Json) : Option UnrepairedClass := do
  let fields ← json.record? ["diagnostic", "class_name", "reason_token", "reason"]
  let diagnostic ← fields.required? "diagnostic" DiagnosticRef.ofJson?
  let className ← fields.optional? "class_name" Json.string?
  let reasonToken ← fields.required? "reason_token" Json.string?
  let reason ← fields.required? "reason" Json.string?
  some { diagnostic, className, reasonToken, reason }

def fields (failure : UnrepairedClass) : List (List Char × Json) :=
  field "diagnostic" failure.diagnostic.toJson ++
  optionalField "class_name" .ofString failure.className ++
  field "reason_token" (.ofString failure.reasonToken) ++
  field "reason" (.ofString failure.reason)

def toJson (failure : UnrepairedClass) : Json :=
  .object failure.fields

end UnrepairedClass

namespace RepairPlan

def ofJson? (json : Json) : Option RepairPlan := do
  let fields ← json.record?
    ["schema", "tool", "inputs", "policy", "edits", "failures", "blocked", "blocked_reason",
      "blocked_reason_token", "summary"]
  let schema ← fields.required? "schema" Json.string?
  let tool ← fields.required? "tool" Tool.ofJson?
  let inputs ← fields.withDefault? "inputs" [] (Json.list? PlanInput.ofJson?)
  let policy ← fields.required? "policy" PlanPolicy.ofJson?
  let edits ← fields.required? "edits" EditSet.ofJson?
  let failures ← fields.withDefault? "failures" [] (Json.list? UnrepairedClass.ofJson?)
  let blocked ← fields.withDefault? "blocked" false Json.bool?
  let blockedReason ← fields.optional? "blocked_reason" Json.string?
  let blockedReasonToken ← fields.optional? "blocked_reason_token" Json.string?
  let summary ← fields.required? "summary" PlanSummary.ofJson?
  some
    { schema, tool, inputs, policy, edits, failures, blocked, blockedReason, blockedReasonToken,
      summary }

def toJson (plan : RepairPlan) : Json :=
  .object <|
    field "schema" (.ofString plan.schema) ++
    field "tool" plan.tool.toJson ++
    field "inputs" (.ofList PlanInput.toJson plan.inputs) ++
    field "policy" plan.policy.toJson ++
    field "edits" plan.edits.toJson ++
    field "failures" (.ofList UnrepairedClass.toJson plan.failures) ++
    field "blocked" (.bool plan.blocked) ++
    optionalField "blocked_reason" .ofString plan.blockedReason ++
    optionalField "blocked_reason_token" .ofString plan.blockedReasonToken ++
    field "summary" plan.summary.toJson

end RepairPlan

end MemberStubs
