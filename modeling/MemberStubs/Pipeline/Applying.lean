import MemberStubs.Application.Execution
import MemberStubs.Document.ApplyRecord
import MemberStubs.Document.Plan
import MemberStubs.Json.Printer
import MemberStubs.Json.Reader
import MemberStubs.Review.ApplyPage

namespace MemberStubs

/-! From a stored plan to changed files, or to a record of why they do not change. -/

structure ApplyOutcome where
  record : ApplyRecord
  patch : String
  isBlocked : Bool
  deriving DecidableEq, Repr

namespace ApplyOutcome

def artifacts (outcome : ApplyOutcome) (directory : Path) : Artifacts :=
  { directory
    files :=
      [ (directory / "apply.json", outcome.record.toJson.print),
        (directory / "apply.md", outcome.record.page), (directory / "patch.diff", outcome.patch) ] }

end ApplyOutcome

/-- Where files are, where the plan is, and how insertions look. -/
structure ApplyTask where
  root : Path := ⟨"."⟩
  directory : Path := ⟨"artifacts/absfix"⟩
  dryRun : Bool := true
  indentUnit : String := "    "
  newline : Option String := none
  deriving DecidableEq, Repr, Inhabited

namespace Applying

/-- A blocked plan blocks each of its files. -/
def blockedResult (reason : String) (file : FileEdit) : FileResult :=
  { path := file.path.text
    status := .blocked
    message := some reason
    classes := .ofNat file.classes.length
    stubsInserted := 0
    sha256Before := file.sha256 }

def blockedOutcome (plan : RepairPlan) (tool : Tool) : ApplyOutcome :=
  let reason := plan.blockedReason.getD "plan is blocked"
  let results := plan.edits.files.map (blockedResult reason)
  { record := { tool, results, summary := { blocked := .ofNat results.length } }
    patch := ""
    isBlocked := true }

def options (task : ApplyTask) (plan : RepairPlan) : ApplyOptions :=
  { dryRun := task.dryRun
    requireCleanHashes := plan.policy.requireCleanHashes
    indentUnit := task.indentUnit
    newline := task.newline }

variable {m : Type → Type} [Monad m] [FileStore m]

def planOf (text : String) : Attempt m RepairPlan :=
  match Json.decode? RepairPlan.ofJson? text with
  | some plan => pure plan
  | none => Attempt.during "parse plan.json" (Attempt.fail .malformedDocument)

def loadPlan (directory : Path) : Attempt m RepairPlan := do
  let path := directory / "plan.json"
  let text ← Attempt.during s!"read {path}" (FileStore.readText path)
  planOf text

def run (task : ApplyTask) (tool : Tool) (now : Timestamp) : Attempt m ApplyOutcome := do
  let plan ← loadPlan task.directory
  if plan.blocked then pure (blockedOutcome plan tool)
  else
    let (record, patch) ← Attempt.during "apply edits"
      (plan.edits.apply task.root tool (options task plan) now)
    pure { record, patch, isBlocked := record.policyBlock?.isSome }

end Applying

end MemberStubs
