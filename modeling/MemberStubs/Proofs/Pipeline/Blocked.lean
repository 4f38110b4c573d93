import MemberStubs.Proofs.Pipeline.Preview

/-! A plan that exceeds a cap is inert. Its edits stay in it and its patch is emptied; a run of the
plan, once it is stored, blocks every file that the plan edits and leaves the disk as it is. -/

namespace MemberStubs

open Attempt

/-! ## Caps -/

/-- A cap is set, and a count is above it. -/
def IsExceeded (cap : Option UInt64) (count : UInt64) : Prop :=
  ∃ limit, cap = some limit ∧ limit < count

theorem isExceeded_ofNat_iff {cap : Option UInt64} {count : Nat} (fits : count < UInt64.size) :
    IsExceeded cap (.ofNat count) ↔ ∃ limit, cap = some limit ∧ limit.toNat < count := by
  have same : (UInt64.ofNat count).toNat = count := UInt64.toNat_ofNat_of_lt' fits
  simp only [IsExceeded, UInt64.lt_iff_toNat_lt, same]

theorem RepairPlan.exceededCap?_eq_none_iff {plan : RepairPlan} :
    plan.exceededCap? = none ↔
      ¬ (IsExceeded plan.policy.maxFiles plan.summary.filesTouched ∨
        IsExceeded plan.policy.maxClasses plan.summary.classesRepaired) := by
  simp [exceededCap?, exceededFiles?, exceededClasses?, IsExceeded]

namespace PlanOutcome

theorem blocked_checkCaps_iff {outcome : PlanOutcome} (unblocked : outcome.plan.blocked = false) :
    outcome.checkCaps.plan.blocked = true ↔
      IsExceeded outcome.plan.policy.maxFiles outcome.plan.summary.filesTouched ∨
        IsExceeded outcome.plan.policy.maxClasses outcome.plan.summary.classesRepaired := by
  rw [← not_iff_not, ← RepairPlan.exceededCap?_eq_none_iff, checkCaps]
  cases outcome.plan.exceededCap? <;> simp [unblocked]

theorem checkCaps_of_blocked {outcome : PlanOutcome} (unblocked : outcome.plan.blocked = false)
    (blocked : outcome.checkCaps.plan.blocked = true) :
    outcome.checkCaps.patch = "" ∧ outcome.checkCaps.plan.summary.patchBytes = some 0 := by
  rw [checkCaps] at blocked ⊢
  split at blocked
  · rw [unblocked] at blocked
    cases blocked
  · exact ⟨rfl, rfl⟩

end PlanOutcome

/-! ## Runs of a blocked plan -/

namespace Applying

/-- A run that touches no file of a plan and says so of each of them. -/
structure Refuses (plan : RepairPlan) (outcome : ApplyOutcome) : Prop where
  isBlocked : outcome.isBlocked = true
  patch : outcome.patch = ""
  results : List.Forall₂ (fun edit result =>
      result.path = edit.path.text ∧ result.status = .blocked ∧ result.stubsInserted = 0)
    plan.edits.files outcome.record.results
  blocked : outcome.record.summary.blocked = .ofNat plan.edits.files.length

theorem blockedOutcome_refuses (plan : RepairPlan) (tool : Tool) :
    Refuses plan (blockedOutcome plan tool) where
  isBlocked := rfl
  patch := rfl
  results := by
    show List.Forall₂ _ plan.edits.files (plan.edits.files.map (blockedResult _))
    rw [List.forall₂_map_right_iff, List.forall₂_same]
    exact fun _ _ => ⟨rfl, rfl, rfl⟩
  blocked := by
    show UInt64.ofNat (plan.edits.files.map (blockedResult _)).length = _
    rw [List.length_map]

theorem yields_run_of_blocked {task : ApplyTask} {disk : Disk} {plan : RepairPlan}
    (held : Holds disk task.directory plan) (blocked : plan.blocked = true) (tool : Tool)
    (now : Timestamp) :
    (run task tool now : Attempt (StateM Disk) _).Yields disk (blockedOutcome plan tool) disk := by
  simp only [run, yields_bind_iff, yields_loadPlan_iff]
  refine ⟨plan, disk, ⟨held, rfl⟩, ?_⟩
  rw [if_pos blocked, yields_pure_iff]
  exact ⟨rfl, rfl⟩

end Applying

/-- Neither its patch nor a run of its stored plan changes a file. -/
structure PlanOutcome.Inert (planned : PlanOutcome) : Prop where
  patch : planned.patch = ""
  patchBytes : planned.plan.summary.patchBytes = some 0
  stored : ∀ directory before stored,
    ((planned.artifacts directory).store : Attempt (StateM Disk) _).Yields before () stored →
      stored.bytes? (directory / "plan.json") = some (Text.utf8Bytes planned.plan.toJson.print)
  refused : ∀ (task : ApplyTask) (tool : Tool) (now : Timestamp) (later : Disk),
    later.bytes? (task.directory / "plan.json") =
        some (Text.utf8Bytes planned.plan.toJson.print) →
      ∃ outcome, (Applying.run task tool now : Attempt (StateM Disk) _).Yields later outcome
          later ∧
        Applying.Refuses planned.plan outcome

theorem PlanOutcome.inert_checkCaps {outcome : PlanOutcome}
    (unblocked : outcome.plan.blocked = false)
    (blocked : outcome.checkCaps.plan.blocked = true) : outcome.checkCaps.Inert where
  patch := (checkCaps_of_blocked unblocked blocked).1
  patchBytes := (checkCaps_of_blocked unblocked blocked).2
  stored _ _ _ := holds_of_stored
  refused _ tool now _ found :=
    ⟨_, Applying.yields_run_of_blocked (Applying.holds_of_bytes? found) blocked tool now,
      Applying.blockedOutcome_refuses ..⟩

namespace Planning

/-- What the caps of the settings make of a plan for computed edits. -/
structure Capped (settings : Settings) (computed : EditSet) (planned : PlanOutcome) : Prop where
  edits : ∃ digest, planned.plan.edits = computed.withDigests digest
  blocked_iff : planned.plan.blocked = true ↔
    IsExceeded settings.maxFiles (.ofNat planned.plan.edits.files.length) ∨
      IsExceeded settings.maxClasses (.ofNat planned.plan.edits.classCount)
  /-- Numbers of edits that a machine word can hold are compared as they are. -/
  counted : planned.plan.edits.files.length < UInt64.size →
    planned.plan.edits.classCount < UInt64.size →
      (planned.plan.blocked = true ↔
        (∃ limit, settings.maxFiles = some limit ∧
          limit.toNat < planned.plan.edits.files.length) ∨
        ∃ limit, settings.maxClasses = some limit ∧
          limit.toNat < planned.plan.edits.classCount)
  inert : planned.plan.blocked = true → planned.Inert

theorem blocked_outcomeOf_iff {settings : Settings} {tool : Tool} {reports : List LoadedReport}
    {batch : Batch} {edits : EditSet} {patch : String} :
    (outcomeOf settings tool reports batch edits patch).plan.blocked = true ↔
      IsExceeded settings.maxFiles (.ofNat batch.edits.files.length) ∨
        IsExceeded settings.maxClasses (.ofNat batch.edits.classCount) :=
  PlanOutcome.blocked_checkCaps_iff rfl

/-- The caps are checked against the edits as they were computed, before digests are attached. -/
theorem outcomeOf_capped (settings : Settings) (tool : Tool) (reports : List LoadedReport)
    (batch : Batch) (digest : FileEdit → Option String) (patch : String) :
    Capped settings batch.edits
      (outcomeOf settings tool reports batch (batch.edits.withDigests digest) patch) := by
  have kept : (outcomeOf settings tool reports batch (batch.edits.withDigests digest)
      patch).plan.edits = batch.edits.withDigests digest := edits_checkCaps _
  have files := batch.edits.length_files_withDigests digest
  have classes := batch.edits.classCount_withDigests digest
  refine ⟨⟨digest, kept⟩, ?_, fun filesFit classesFit => ?_, PlanOutcome.inert_checkCaps rfl⟩
  · rw [kept, files, classes, blocked_outcomeOf_iff]
  · rw [kept, files] at filesFit
    rw [kept, classes] at classesFit
    rw [kept, files, classes, blocked_outcomeOf_iff, isExceeded_ofNat_iff filesFit,
      isExceeded_ofNat_iff classesFit]

/-- A plan that is made is blocked if and only if its edits exceed a cap, and then it is inert. -/
theorem run_capped {root : Path} {settings : Settings} {source : ReportSource}
    {programSource : ProgramSource} {tool : Tool} {disk next : Disk} {planned : PlanOutcome}
    (ran : (run root settings source programSource tool : Attempt (StateM Disk) _).Yields disk
      planned next) :
    ∃ reports loaded program modelled,
      (source.load : Attempt (StateM Disk) _).Yields disk reports loaded ∧
      (programSource.load : Attempt (StateM Disk) _).Yields loaded program modelled ∧
      Capped settings (batchOf settings program reports).edits planned := by
  rcases yields_run_iff.mp ran with
    ⟨reports, loaded, program, modelled, edits, outcomes, loads, models, hashed, _, rfl⟩
  rcases eq_withDigests_of_yields hashed with ⟨digest, rfl⟩
  exact ⟨reports, loaded, program, modelled, loads, models, outcomeOf_capped ..⟩

/-! The drawing, planned with room for no file at all. -/

def cappedSettings : Settings :=
  { maxFiles := some 0 }

def drawingWithPlan (plan : RepairPlan) : Disk :=
  { nodes :=
      (["work", "plans"], .directory) ::
        (["work", "plans", "plan.json"], .file (Text.utf8Bytes plan.toJson.print)) ::
          Applying.drawing.nodes
    current := ["work"] }

theorem run_capped_drawing :
    ∃ planned outcome,
      (run Applying.drawingTask.root cappedSettings (.memory [Applying.drawingReport])
        (.memory RepairsExactly.shapes) ⟨"absfix", none⟩ : Attempt (StateM Disk) _).Yields
          Applying.drawing planned Applying.drawing ∧
      planned.plan.blocked = true ∧
      planned.plan.edits.files.map FileEdit.path = [⟨"src/shapes.ts"⟩] ∧
      (Applying.run { Applying.drawingTask with dryRun := false } ⟨"absfix", none⟩ default :
        Attempt (StateM Disk) _).Yields (drawingWithPlan planned.plan) outcome
          (drawingWithPlan planned.plan) ∧
      Applying.Refuses planned.plan outcome := by
  rcases @exists_yields_run _ cappedSettings _ _ ⟨"absfix", none⟩ _ _ _ Applying.loads_drawing
    Applying.models_drawing Applying.readable_drawing with ⟨_, planned, ran, _⟩
  rcases run_capped ran with ⟨reports, loaded, program, modelled, loads, models, capped⟩
  rcases loads.unique Applying.loads_drawing with ⟨rfl, rfl⟩
  rcases models.unique Applying.models_drawing with ⟨rfl, rfl⟩
  have paths : planned.plan.edits.files.map FileEdit.path = [⟨"src/shapes.ts"⟩] := by
    rcases capped.edits with ⟨digest, kept⟩
    rw [kept, EditSet.files_withDigests, List.map_map]
    exact Applying.paths_drawing
  have blocked : planned.plan.blocked = true := by
    have single : planned.plan.edits.files.length = 1 := by
      rw [← List.length_map FileEdit.path, paths]
      rfl
    rw [capped.blocked_iff, single]
    exact .inl ⟨0, rfl, by decide⟩
  have found : (drawingWithPlan planned.plan).bytes? (Applying.drawingTask.directory / "plan.json") =
      some (Text.utf8Bytes planned.plan.toJson.print) := by
    with_unfolding_all rfl
  rcases (capped.inert blocked).refused { Applying.drawingTask with dryRun := false }
    ⟨"absfix", none⟩ default _ found with ⟨outcome, runs, refuses⟩
  exact ⟨planned, outcome, ran, blocked, paths, runs, refuses⟩

end Planning

end MemberStubs
