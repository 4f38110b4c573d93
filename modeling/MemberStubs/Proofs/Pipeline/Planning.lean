import MemberStubs.Pipeline.Planning
import MemberStubs.Proofs.Application.Execution
import MemberStubs.Proofs.Repair.Batch

/-! What a plan holds that is not blocked. Its patch is that of a preview of its edits on the disk
that planning leaves, and where clean hashes are asked for, its edits record the digests of their
files on that disk. -/

namespace MemberStubs

open Attempt

theorem FileEdit.yields_attachHash_iff {root : Path} {edit hashed : FileEdit} {disk next : Disk} :
    (edit.attachHash root : Attempt (StateM Disk) _).Yields disk hashed next ↔
      (∃ bytes, disk.bytes? (edit.fileIn root) = some bytes ∧
        hashed = { edit with sha256 := some (Digest.sha256 bytes) }) ∧ next = disk := by
  simp only [attachHash, yields_bind_iff, yields_during_iff, FileStore.yields_readBytes_iff,
    yields_pure_iff]
  constructor
  · rintro ⟨bytes, _, ⟨read, rfl⟩, rfl, rfl⟩
    exact ⟨⟨bytes, read, rfl⟩, rfl⟩
  · rintro ⟨⟨bytes, read, rfl⟩, rfl⟩
    exact ⟨bytes, _, ⟨read, rfl⟩, rfl, rfl⟩

theorem EditSet.yields_attachHashes_iff {edits hashed : EditSet} {root : Path} {disk next : Disk} :
    (edits.attachHashes root : Attempt (StateM Disk) _).Yields disk hashed next ↔
      ∃ files, List.Forall₂ (fun edit hashed => ∃ bytes,
          disk.bytes? (edit.fileIn root) = some bytes ∧
            hashed = { edit with sha256 := some (Digest.sha256 bytes) }) edits.files files ∧
        hashed = { edits with files } ∧ next = disk := by
  simp only [attachHashes, yields_bind_iff, yields_mapM_iff FileEdit.yields_attachHash_iff,
    yields_pure_iff]
  constructor
  · rintro ⟨files, _, ⟨attached, rfl⟩, rfl, rfl⟩
    exact ⟨files, attached, rfl, rfl⟩
  · rintro ⟨files, attached, rfl, rfl⟩
    exact ⟨files, _, ⟨attached, rfl⟩, rfl, rfl⟩

/-- Edits with the digests of their files pass the hash check on that disk. -/
theorem EditSet.passesHash_of_attachHashes {edits hashed : EditSet} {root : Path} {disk next : Disk}
    (yields : (edits.attachHashes root : Attempt (StateM Disk) _).Yields disk hashed next) :
    next = disk ∧ ∀ edit ∈ hashed.files, ∀ options bytes,
      disk.bytes? (edit.fileIn root) = some bytes → edit.PassesHash options bytes := by
  rcases yields_attachHashes_iff.mp yields with ⟨files, attached, rfl, rfl⟩
  refine ⟨rfl, fun edit member options bytes held _ expected recorded => ?_⟩
  rcases attached.flip.exists_of_mem member with ⟨plain, _, bytes', held', rfl⟩
  cases held.symm.trans held'
  exact (Option.some.inj recorded).symm

/-- The same edits, each with some digest of its file or none. -/
def EditSet.withDigests (edits : EditSet) (digest : FileEdit → Option String) : EditSet :=
  { edits with files := edits.files.map fun edit => { edit with sha256 := digest edit } }

theorem EditSet.withDigests_sha256 (edits : EditSet) :
    edits.withDigests FileEdit.sha256 = edits := by
  rw [withDigests, List.map_id'']
  exact fun _ => rfl

theorem EditSet.files_withDigests (edits : EditSet) (digest : FileEdit → Option String) :
    (edits.withDigests digest).files =
      edits.files.map fun edit => { edit with sha256 := digest edit } :=
  rfl

theorem EditSet.length_files_withDigests (edits : EditSet) (digest : FileEdit → Option String) :
    (edits.withDigests digest).files.length = edits.files.length :=
  List.length_map _

theorem EditSet.classCount_withDigests (edits : EditSet) (digest : FileEdit → Option String) :
    (edits.withDigests digest).classCount = edits.classCount := by
  rw [classCount, classes, files_withDigests, List.flatMap_map]
  rfl

namespace Planning

theorem checkCaps_of_not_blocked {outcome : PlanOutcome}
    (unblocked : outcome.checkCaps.plan.blocked = false) : outcome.checkCaps = outcome := by
  rw [PlanOutcome.checkCaps] at unblocked ⊢
  split
  · rfl
  · next cap exceeded =>
      rw [exceeded] at unblocked
      cases unblocked

/-- What planning says, given the batch, its edits with their digests, and their preview. -/
def outcomeOf (settings : Settings) (tool : Tool) (reports : List LoadedReport) (batch : Batch)
    (edits : EditSet) (patch : String) : PlanOutcome :=
  PlanOutcome.checkCaps
    { plan :=
        { tool
          inputs := reports.map LoadedReport.toInput
          policy := policy settings
          edits
          failures := batch.failures.map ClassFailure.toUnrepaired
          summary := summary (Reports.diagnostics reports) batch patch }
      patch }

def batchOf (settings : Settings) (program : Program) (reports : List LoadedReport) : Batch :=
  repairAll program { policy := settings.stubPolicy, indentUnit := settings.indentUnit }
    (Reports.diagnostics reports)

theorem yields_run_iff {root : Path} {settings : Settings} {source : ReportSource}
    {programSource : ProgramSource} {tool : Tool} {disk next : Disk} {planned : PlanOutcome} :
    (run root settings source programSource tool : Attempt (StateM Disk) _).Yields disk planned
        next ↔
      ∃ reports loaded program modelled edits outcomes,
        (source.load : Attempt (StateM Disk) _).Yields disk reports loaded ∧
        (programSource.load : Attempt (StateM Disk) _).Yields loaded program modelled ∧
        (hashedEdits root settings (batchOf settings program reports).edits :
          Attempt (StateM Disk) _).Yields modelled edits next ∧
        List.Forall₂ (FileEdit.Meets next root (previewOptions settings)) edits.edited outcomes ∧
        planned = outcomeOf settings tool reports (batchOf settings program reports) edits
          (Outcomes.patch outcomes) := by
  simp only [run, yields_bind_iff, yields_during_iff, EditSet.yields_previewPatch_iff,
    yields_pure_iff]
  constructor
  · rintro ⟨reports, loaded, loads, program, modelled, models, edits, _, hashed, _, _,
      ⟨outcomes, meets, rfl, rfl⟩, rfl, rfl⟩
    exact ⟨reports, loaded, program, modelled, edits, outcomes, loads, models, hashed, meets, rfl⟩
  · rintro ⟨reports, loaded, program, modelled, edits, outcomes, loads, models, hashed, meets, rfl⟩
    exact ⟨reports, loaded, loads, program, modelled, models, edits, next, hashed, _, next,
      ⟨outcomes, meets, rfl, rfl⟩, rfl, rfl⟩

/-- A plan that is not blocked comes with the preview of its edits. -/
structure Previews (root : Path) (settings : Settings) (disk : Disk) (planned : PlanOutcome)
    (outcomes : List FileOutcome) : Prop where
  meets : List.Forall₂ (FileEdit.Meets disk root (previewOptions settings))
    planned.plan.edits.edited outcomes
  patch : planned.patch = Outcomes.patch outcomes
  policy : planned.plan.policy = Planning.policy settings
  hashes : settings.requireCleanHashes = true → ∀ edit ∈ planned.plan.edits.edited,
    ∀ options bytes, disk.bytes? (edit.fileIn root) = some bytes → edit.PassesHash options bytes

theorem exists_previews_of_yields_run {root : Path} {settings : Settings} {source : ReportSource}
    {programSource : ProgramSource} {tool : Tool} {disk next : Disk} {planned : PlanOutcome}
    (yields : (run root settings source programSource tool : Attempt (StateM Disk) _).Yields disk
      planned next) (unblocked : planned.plan.blocked = false) :
    ∃ outcomes, Previews root settings next planned outcomes := by
  rcases yields_run_iff.mp yields with
    ⟨reports, _, program, _, edits, outcomes, _, _, hashed, meets, rfl⟩
  rw [outcomeOf, checkCaps_of_not_blocked unblocked]
  refine ⟨outcomes, meets, rfl, rfl, fun clean edit member => ?_⟩
  rw [hashedEdits, if_pos clean, yields_during_iff] at hashed
  rcases EditSet.passesHash_of_attachHashes hashed with ⟨rfl, passes⟩
  exact passes edit (List.mem_filter.mp member).1

theorem eq_withDigests_of_yields {root : Path} {settings : Settings}
    {edits recorded : EditSet} {disk next : Disk}
    (hashed : (hashedEdits root settings edits : Attempt (StateM Disk) _).Yields disk recorded
      next) : ∃ digest, recorded = edits.withDigests digest := by
  rw [hashedEdits] at hashed
  split at hashed
  · rw [yields_during_iff, EditSet.yields_attachHashes_iff] at hashed
    rcases hashed with ⟨files, attached, rfl, _⟩
    refine ⟨fun edit => (disk.bytes? (edit.fileIn root)).map Digest.sha256, ?_⟩
    rw [EditSet.withDigests]
    congr 1
    rw [← List.forall₂_eq_eq_eq, List.forall₂_map_right_iff]
    refine attached.flip.imp fun _ _ found => ?_
    rcases found with ⟨bytes, held, rfl⟩
    rw [held, Option.map_some]
  · rcases yields_pure_iff.mp hashed with ⟨rfl, _⟩
    exact ⟨FileEdit.sha256, recorded.withDigests_sha256.symm⟩

/-! ## Plans that are made -/

/-- The digests of files that can be read can be recorded. -/
theorem exists_yields_hashedEdits {root : Path} (settings : Settings) {edits : EditSet}
    {disk : Disk}
    (readable : ∀ edit ∈ edits.files, ∃ bytes, disk.bytes? (edit.fileIn root) = some bytes) :
    ∃ digest : FileEdit → Option String,
      (hashedEdits root settings edits : Attempt (StateM Disk) _).Yields disk
        (edits.withDigests digest) disk := by
  by_cases clean : settings.requireCleanHashes = true
  · refine ⟨fun edit => some (Digest.sha256 ((disk.bytes? (edit.fileIn root)).getD [])), ?_⟩
    rw [hashedEdits, if_pos clean, yields_during_iff, EditSet.yields_attachHashes_iff]
    refine ⟨_, ?_, rfl, rfl⟩
    rw [List.forall₂_map_right_iff, List.forall₂_same]
    intro edit member
    rcases readable edit member with ⟨bytes, held⟩
    refine ⟨bytes, held, ?_⟩
    show { edit with sha256 := some (Digest.sha256 ((disk.bytes? (edit.fileIn root)).getD [])) } = _
    rw [held, Option.getD_some]
  · refine ⟨FileEdit.sha256, ?_⟩
    rw [hashedEdits, if_neg clean, yields_pure_iff, EditSet.withDigests_sha256]
    exact ⟨rfl, rfl⟩

theorem edits_checkCaps (outcome : PlanOutcome) :
    outcome.checkCaps.plan.edits = outcome.plan.edits := by
  rw [PlanOutcome.checkCaps]
  split <;> rfl

theorem checkCaps_of_uncapped {outcome : PlanOutcome} (files : outcome.plan.policy.maxFiles = none)
    (classes : outcome.plan.policy.maxClasses = none) : outcome.checkCaps = outcome := by
  have within : outcome.plan.exceededCap? = none := by
    rw [RepairPlan.exceededCap?, RepairPlan.exceededFiles?, RepairPlan.exceededClasses?, files,
      classes]
    rfl
  rw [PlanOutcome.checkCaps, within]

/-- A plan is made if what it is made from can be loaded and all files to edit are texts. It is not
blocked if there are no caps. -/
theorem exists_yields_run {root : Path} {settings : Settings} {source : ReportSource}
    {programSource : ProgramSource} (tool : Tool) {disk : Disk} {reports : List LoadedReport}
    {program : Program} (loads : (source.load : Attempt (StateM Disk) _).Yields disk reports disk)
    (models : (programSource.load : Attempt (StateM Disk) _).Yields disk program disk)
    (readable : ∀ edit ∈ (batchOf settings program reports).edits.files, ∃ text,
      disk.text? (edit.fileIn root) = some text) :
    ∃ (digest : FileEdit → Option String) (planned : PlanOutcome),
      (run root settings source programSource tool : Attempt (StateM Disk) _).Yields disk planned
        disk ∧
      planned.plan.edits.edited = (batchOf settings program reports).edits.files.map
        (fun edit => { edit with sha256 := digest edit }) ∧
      (settings.maxFiles = none → settings.maxClasses = none → planned.plan.blocked = false) := by
  let edits := (batchOf settings program reports).edits
  have bytes : ∀ edit ∈ edits.files, ∃ bytes, disk.bytes? (edit.fileIn root) = some bytes := by
    intro edit member
    rcases readable edit member with ⟨text, held⟩
    exact ⟨_, Disk.text?_eq_some_iff.mp held⟩
  rcases exists_yields_hashedEdits settings bytes with ⟨digest, hashed⟩
  let recorded := edits.withDigests digest
  have previewed : ∃ outcomes, List.Forall₂ (FileEdit.Meets disk root (previewOptions settings))
      recorded.edited outcomes := by
    rw [EditSet.exists_meets_iff]
    intro edit member
    rcases List.mem_map.mp (List.mem_filter.mp member).1 with ⟨plain, held, rfl⟩
    exact readable plain held
  rcases previewed with ⟨outcomes, meets⟩
  refine ⟨digest, outcomeOf settings tool reports _ recorded (Outcomes.patch outcomes),
    yields_run_iff.mpr ⟨reports, disk, program, disk, recorded, outcomes, loads, models, hashed,
      meets, rfl⟩, ?_, ?_⟩
  · rw [outcomeOf, edits_checkCaps]
    show recorded.edited = recorded.files
    rw [EditSet.edited, List.filter_eq_self, EditSet.files_withDigests, List.forall_mem_map]
    intro edit member
    rcases Batch.mem_files_iff.mp member with ⟨something, whole⟩
    have classes : edit.classes ≠ [] := congrArg FileEdit.classes whole ▸ something
    simpa using classes
  · intro files classes
    rw [outcomeOf, checkCaps_of_uncapped files classes]

end Planning

end MemberStubs
