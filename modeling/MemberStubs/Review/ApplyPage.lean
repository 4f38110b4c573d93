import MemberStubs.ApplyRecord
import MemberStubs.Review.PlanPage

namespace MemberStubs

/-! An apply record as a page in Markdown. -/

def HashMismatch.pageLine (mismatch : HashMismatch) : String :=
  s!"- {inCode mismatch.path} expected {mismatch.expected} got {mismatch.actual}"

def FileResult.pageLines (number : Nat) (result : FileResult) : List String :=
  let before := result.sha256Before.getD "-"
  let after := result.sha256After.getD "-"
  [ s!"### {number}. {result.path}", "", "- Status: " ++ inCode result.status.label,
    s!"- Classes: {result.classes} ({result.stubsInserted} stubs)" ] ++
  (result.message.map fun message => s!"- Message: {message}").toList ++
  [s!"- sha256: {before} → {after}", ""]

namespace ApplyRecord

def summaryLines (record : ApplyRecord) : List String :=
  let summary := record.summary
  ["# absfix apply", ""] ++
  (if record.applied then [] else ["_Dry run: nothing was written._", ""]) ++
  [ s!"- Attempted: {summary.attempted}", s!"- Applied: {summary.applied}",
    s!"- Blocked: {summary.blocked}", s!"- Failed: {summary.failed}",
    s!"- Files modified: {summary.filesModified}", "" ]

def mismatchLines (record : ApplyRecord) : List String :=
  let mismatches := record.preconditions.mismatches
  if mismatches.isEmpty then []
  else ["## Precondition mismatches", ""] ++ mismatches.map HashMismatch.pageLine ++ [""]

def resultLines (record : ApplyRecord) : List String :=
  ["## Results", ""] ++
  if record.results.isEmpty then ["_No results._"]
  else (record.results.mapIdx fun index result => result.pageLines (index + 1)).flatten

def page (record : ApplyRecord) : String :=
  pageText (record.summaryLines ++ record.mismatchLines ++ record.resultLines)

end ApplyRecord

end MemberStubs
