import MemberStubs.Application.Execution
import MemberStubs.Document.Plan
import MemberStubs.Document.Snapshot
import MemberStubs.Json.Printer
import MemberStubs.Repair.Batch
import MemberStubs.Reports.Loading
import MemberStubs.Review.PlanPage
import MemberStubs.Settings.Configuration

namespace MemberStubs

/-! From reports and a program to a plan. -/

/-! ## Caps -/

inductive ExceededCap where
  | files (count limit : UInt64)
  | classes (count limit : UInt64)
  deriving DecidableEq, Repr

namespace ExceededCap

def token : ExceededCap → String
  | .files .. => "max_files"
  | .classes .. => "max_classes"

def message : ExceededCap → String
  | .files count limit => s!"caps exceeded: {count} files > max_files {limit}"
  | .classes count limit => s!"caps exceeded: {count} classes > max_classes {limit}"

end ExceededCap

namespace RepairPlan

def exceededFiles? (plan : RepairPlan) : Option ExceededCap :=
  let count := plan.summary.filesTouched
  (plan.policy.maxFiles.filter (· < count)).map (.files count)

def exceededClasses? (plan : RepairPlan) : Option ExceededCap :=
  let count := plan.summary.classesRepaired
  (plan.policy.maxClasses.filter (· < count)).map (.classes count)

/-- The cap on files comes first. -/
def exceededCap? (plan : RepairPlan) : Option ExceededCap :=
  plan.exceededFiles? <|> plan.exceededClasses?

end RepairPlan

/-! ## Programs -/

inductive ProgramSource where
  | memory (snapshot : Snapshot)
  | file (path : Path)

variable {m : Type → Type} [Monad m] [FileStore m]

namespace ProgramSource

def snapshotOf (text : String) : Attempt m Snapshot :=
  match Json.decode? (Snapshot.ofJson? Json.maxHeight) text with
  | some snapshot => pure snapshot
  | none => Attempt.during "parse program snapshot" (Attempt.fail .malformedDocument)

def loadSnapshot : ProgramSource → Attempt m Snapshot
  | .memory snapshot => pure snapshot
  | .file path => do
      let text ← Attempt.during s!"read program snapshot {path}" (FileStore.readText path)
      Attempt.during s!"load program snapshot {path}" (snapshotOf text)

def load (source : ProgramSource) : Attempt m Program := do
  let snapshot ← Attempt.during "load program model" source.loadSnapshot
  pure (.ofSnapshot snapshot)

end ProgramSource

/-! ## Plans -/

/-- A plan and its patch. The patch of a blocked plan is empty. -/
structure PlanOutcome where
  plan : RepairPlan
  patch : String
  deriving DecidableEq, Repr

namespace PlanOutcome

def isBlocked (outcome : PlanOutcome) : Bool :=
  outcome.plan.blocked

/-- Blocks a plan that exceeds a cap. The edits stay in it. -/
def checkCaps (outcome : PlanOutcome) : PlanOutcome :=
  match outcome.plan.exceededCap? with
  | none => outcome
  | some cap =>
      { plan :=
          { outcome.plan with
            blocked := true
            blockedReason := some cap.message
            blockedReasonToken := some cap.token
            summary := { outcome.plan.summary with patchBytes := some 0 } }
        patch := "" }

def artifacts (outcome : PlanOutcome) (directory : Path) : Artifacts :=
  { directory
    files :=
      [ (directory / "plan.json", outcome.plan.toJson.print),
        (directory / "edits.json", outcome.plan.edits.toJson.print),
        (directory / "plan.md", outcome.plan.page), (directory / "patch.diff", outcome.patch) ] }

end PlanOutcome

namespace Planning

def summary (diagnostics : List Diagnostic) (batch : Batch) (patch : String) : PlanSummary :=
  { diagnosticsTotal := .ofNat diagnostics.length
    diagnosticsIgnored := .ofNat (diagnostics.countP fun diagnostic => !diagnostic.isRecognized)
    filesTouched := .ofNat batch.edits.files.length
    classesRepaired := .ofNat batch.edits.classCount
    stubsTotal := .ofNat batch.edits.stubCount
    membersSkipped := .ofNat batch.edits.skippedCount
    classesFailed := .ofNat batch.failures.length
    patchBytes := some (.ofNat patch.utf8ByteSize) }

def policy (settings : Settings) : PlanPolicy :=
  { stubPolicy := settings.stubPolicy
    requireCleanHashes := settings.requireCleanHashes
    maxFiles := settings.maxFiles
    maxClasses := settings.maxClasses }

def previewOptions (settings : Settings) : ApplyOptions :=
  { dryRun := true
    requireCleanHashes := false
    indentUnit := settings.indentUnit
    newline := settings.newline }

def hashedEdits (root : Path) (settings : Settings) (edits : EditSet) : Attempt m EditSet :=
  if settings.requireCleanHashes then
    Attempt.during "attach preconditions" (edits.attachHashes root)
  else pure edits

def run (root : Path) (settings : Settings) (source : ReportSource) (programSource : ProgramSource)
    (tool : Tool) : Attempt m PlanOutcome := do
  let reports ← source.load
  let program ← programSource.load
  let diagnostics := Reports.diagnostics reports
  let style := { policy := settings.stubPolicy, indentUnit := settings.indentUnit }
  let batch := repairAll program style diagnostics
  let edits ← hashedEdits root settings batch.edits
  let patch ← Attempt.during "preview patch" (edits.previewPatch root (previewOptions settings))
  let plan : RepairPlan :=
    { tool
      inputs := reports.map LoadedReport.toInput
      policy := policy settings
      edits
      failures := batch.failures.map ClassFailure.toUnrepaired
      summary := summary diagnostics batch patch }
  pure (PlanOutcome.checkCaps { plan, patch })

end Planning

end MemberStubs
