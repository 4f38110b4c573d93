import MemberStubs.ApplyRecord
import MemberStubs.Document.Diagnostic

namespace MemberStubs

/-! The written form of apply records. -/

open Json (Fields field optionalField listField)

namespace Timestamp

def ofJson? (json : Json) : Option Timestamp :=
  json.string?.bind parse?

def toJson (timestamp : Timestamp) : Json :=
  .ofString timestamp.text

end Timestamp

namespace ApplyStatus

def ofLabel? : String → Option ApplyStatus
  | "applied" => some .applied
  | "blocked" => some .blocked
  | "failed" => some .failed
  | "skipped" => some .skipped
  | _ => none

def ofJson? (json : Json) : Option ApplyStatus :=
  json.choice?.bind ofLabel?

end ApplyStatus

namespace FileResult

def ofJson? (json : Json) : Option FileResult := do
  let fields ← json.record?
    ["path", "status", "message", "classes", "stubs_inserted", "sha256_before", "sha256_after"]
  let path ← fields.required? "path" Json.string?
  let status ← fields.required? "status" ApplyStatus.ofJson?
  let message ← fields.optional? "message" Json.string?
  let classes ← fields.required? "classes" Json.uint64?
  let stubsInserted ← fields.required? "stubs_inserted" Json.uint64?
  let sha256Before ← fields.optional? "sha256_before" Json.string?
  let sha256After ← fields.optional? "sha256_after" Json.string?
  some { path, status, message, classes, stubsInserted, sha256Before, sha256After }

def toJson (result : FileResult) : Json :=
  .object <|
    field "path" (.ofString result.path) ++
    field "status" (.ofString result.status.label) ++
    optionalField "message" .ofString result.message ++
    field "classes" (.ofUInt64 result.classes) ++
    field "stubs_inserted" (.ofUInt64 result.stubsInserted) ++
    optionalField "sha256_before" .ofString result.sha256Before ++
    optionalField "sha256_after" .ofString result.sha256After

end FileResult

namespace HashMismatch

def ofJson? (json : Json) : Option HashMismatch := do
  let fields ← json.record? ["path", "expected", "actual"]
  let path ← fields.required? "path" Json.string?
  let expected ← fields.required? "expected" Json.string?
  let actual ← fields.required? "actual" Json.string?
  some { path, expected, actual }

def toJson (mismatch : HashMismatch) : Json :=
  .object <|
    field "path" (.ofString mismatch.path) ++
    field "expected" (.ofString mismatch.expected) ++
    field "actual" (.ofString mismatch.actual)

end HashMismatch

namespace Preconditions

def ofJson? (json : Json) : Option Preconditions := do
  let fields ← json.record? ["verified", "mismatches"]
  let verified ← fields.required? "verified" Json.bool?
  let mismatches ← fields.withDefault? "mismatches" [] (Json.list? HashMismatch.ofJson?)
  some { verified, mismatches }

def toJson (preconditions : Preconditions) : Json :=
  .object <|
    field "verified" (.bool preconditions.verified) ++
    field "mismatches" (.ofList HashMismatch.toJson preconditions.mismatches)

end Preconditions

namespace ApplySummary

def ofJson? (json : Json) : Option ApplySummary := do
  let fields ← json.record? ["attempted", "applied", "blocked", "failed", "files_modified"]
  let attempted ← fields.required? "attempted" Json.uint64?
  let applied ← fields.required? "applied" Json.uint64?
  let blocked ← fields.required? "blocked" Json.uint64?
  let failed ← fields.required? "failed" Json.uint64?
  let filesModified ← fields.required? "files_modified" Json.uint64?
  some { attempted, applied, blocked, failed, filesModified }

def toJson (summary : ApplySummary) : Json :=
  .object <|
    field "attempted" (.ofUInt64 summary.attempted) ++
    field "applied" (.ofUInt64 summary.applied) ++
    field "blocked" (.ofUInt64 summary.blocked) ++
    field "failed" (.ofUInt64 summary.failed) ++
    field "files_modified" (.ofUInt64 summary.filesModified)

end ApplySummary

namespace ApplyRecord

def ofJson? (json : Json) : Option ApplyRecord := do
  let fields ← json.record?
    ["schema", "tool", "applied", "preconditions", "results", "summary", "ended_at"]
  let schema ← fields.required? "schema" Json.string?
  let tool ← fields.required? "tool" Tool.ofJson?
  let applied ← fields.required? "applied" Json.bool?
  let preconditions ← fields.withDefault? "preconditions" {} Preconditions.ofJson?
  let results ← fields.withDefault? "results" [] (Json.list? FileResult.ofJson?)
  let summary ← fields.required? "summary" ApplySummary.ofJson?
  let endedAt ← fields.optional? "ended_at" Timestamp.ofJson?
  some { schema, tool, applied, preconditions, results, summary, endedAt }

def toJson (record : ApplyRecord) : Json :=
  .object <|
    field "schema" (.ofString record.schema) ++
    field "tool" record.tool.toJson ++
    field "applied" (.bool record.applied) ++
    field "preconditions" record.preconditions.toJson ++
    field "results" (.ofList FileResult.toJson record.results) ++
    field "summary" record.summary.toJson ++
    optionalField "ended_at" Timestamp.toJson record.endedAt

end ApplyRecord

end MemberStubs
