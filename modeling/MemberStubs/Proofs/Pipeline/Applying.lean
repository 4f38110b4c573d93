import MemberStubs.Pipeline.Applying
import MemberStubs.Proofs.Application.Repeated
import MemberStubs.Proofs.Application.Truth
import MemberStubs.Proofs.Document.Plan

/-! A stored plan, applied. A plan that records the digests of its files can be applied again: a
second run leaves what the first one left, and says so. -/

namespace MemberStubs

namespace Applying

open Attempt

/-- A directory holds a plan, read from the text stored there. -/
def Holds (disk : Disk) (directory : Path) (plan : RepairPlan) : Prop :=
  ∃ text, disk.text? (directory / "plan.json") = some text ∧
    Json.decode? RepairPlan.ofJson? text = some plan

theorem Holds.unique {disk : Disk} {directory : Path} {plan other : RepairPlan}
    (held : Holds disk directory plan) (held' : Holds disk directory other) : plan = other := by
  rcases held with ⟨text, stored, read⟩
  rcases held' with ⟨text', stored', read'⟩
  cases stored.symm.trans stored'
  exact Option.some.inj (read.symm.trans read')

/-- A plan is held where it is written, since it is read as it was written. -/
theorem holds_of_bytes? {disk : Disk} {directory : Path} {plan : RepairPlan}
    (stored : disk.bytes? (directory / "plan.json") = some (Text.utf8Bytes plan.toJson.print)) :
    Holds disk directory plan :=
  ⟨_, Disk.text?_eq_some_iff.mpr stored, RepairPlan.roundTrips.decode?_print plan⟩

theorem holds_of_locate? {disk : Disk} {directory : Path} {plan : RepairPlan} {location : Location}
    (leads : disk.locate? (directory / "plan.json") = some location)
    (stored : disk.node? location = some (.file (Text.utf8Bytes plan.toJson.print))) :
    Holds disk directory plan :=
  holds_of_bytes? (Disk.bytes?_eq_some_iff.mpr ⟨location, leads, stored⟩)

/-- A run leaves the plan as it is, unless one of the files that it edits is the plan. -/
theorem Holds.stays {disk final : Disk} {directory root : Path} {plan : RepairPlan}
    {options : ApplyOptions} {outcomes : List FileOutcome} (held : Holds disk directory plan)
    (apart : plan.edits.LeadApart disk root)
    (meets : List.Forall₂ (FileEdit.Meets disk root options) plan.edits.edited outcomes)
    (rewritten : disk.Rewritten final root (Outcomes.modified outcomes))
    (away : ∀ edit ∈ plan.edits.edited,
      disk.locate? (edit.fileIn root) ≠ disk.locate? (directory / "plan.json")) :
    Holds final directory plan := by
  rcases held with ⟨text, stored, read⟩
  rcases Disk.bytes?_eq_some_iff.mp (Disk.text?_eq_some_iff.mp stored) with ⟨location, leads, found⟩
  rw [leads] at away
  refine ⟨text, Disk.text?_eq_some_iff.mpr (Disk.bytes?_eq_some_iff.mpr
    ⟨location, rewritten.keeps.locate? leads, ?_⟩), read⟩
  rw [EditSet.node?_of_rewritten apart meets rewritten away, found]

theorem yields_loadPlan_iff {directory : Path} {disk next : Disk} {plan : RepairPlan} :
    (loadPlan directory : Attempt (StateM Disk) _).Yields disk plan next ↔
      Holds disk directory plan ∧ next = disk := by
  have parses {text : String} {disk next : Disk} :
      (planOf text : Attempt (StateM Disk) _).Yields disk plan next ↔
        Json.decode? RepairPlan.ofJson? text = some plan ∧ next = disk := by
    rw [planOf]
    cases Json.decode? RepairPlan.ofJson? text with
    | none => simp
    | some stored => simp [eq_comm]
  simp only [loadPlan, yields_bind_iff, yields_during_iff, FileStore.yields_readText_iff, parses,
    Holds]
  constructor
  · rintro ⟨text, _, ⟨stored, rfl⟩, read, rfl⟩
    exact ⟨⟨text, stored, read⟩, rfl⟩
  · rintro ⟨⟨text, stored, read⟩, rfl⟩
    exact ⟨text, _, ⟨stored, rfl⟩, read, rfl⟩

/-- What a run says, given the outcomes for the files of its plan. -/
def outcomeOf (task : ApplyTask) (plan : RepairPlan) (tool : Tool) (now : Timestamp)
    (outcomes : List FileOutcome) : ApplyOutcome :=
  let record := Outcomes.record (options task plan) tool now outcomes
  { record, patch := Outcomes.patch outcomes, isBlocked := record.policyBlock?.isSome }

/-- The run of a plan that is not blocked is the application of its edits. -/
theorem yields_run_iff {task : ApplyTask} {tool : Tool} {now : Timestamp} {disk final : Disk}
    {plan : RepairPlan} {outcome : ApplyOutcome} (held : Holds disk task.directory plan)
    (unblocked : plan.blocked = false) :
    (run task tool now : Attempt (StateM Disk) _).Yields disk outcome final ↔
      ∃ outcomes, List.Forall₂ (FileEdit.Meets disk task.root (options task plan))
          plan.edits.edited outcomes ∧
        outcome = outcomeOf task plan tool now outcomes ∧
        if task.dryRun then final = disk
        else (forM (Outcomes.modified outcomes) (EditSet.writeModified task.root) :
          Attempt (StateM Disk) _).Yields disk () final := by
  simp only [run, yields_bind_iff, yields_loadPlan_iff]
  constructor
  · rintro ⟨plan', _, ⟨held', rfl⟩, yields⟩
    cases held.unique held'
    rw [if_neg (by simp [unblocked])] at yields
    simp only [yields_bind_iff, yields_during_iff, yields_pure_iff] at yields
    rcases yields with ⟨⟨record, patch⟩, _, applied, rfl, rfl⟩
    rcases EditSet.yields_apply_iff.mp applied with ⟨outcomes, meets, rfl, rfl, left⟩
    exact ⟨outcomes, meets, rfl, left⟩
  · rintro ⟨outcomes, meets, rfl, left⟩
    refine ⟨plan, _, ⟨held, rfl⟩, ?_⟩
    rw [if_neg (by simp [unblocked])]
    simp only [yields_bind_iff, yields_during_iff, yields_pure_iff]
    exact ⟨(_, _), _, EditSet.yields_apply_iff.mpr ⟨outcomes, meets, rfl, rfl, left⟩, rfl, rfl⟩

/-! ## Once more -/

/-- What a second run says of the files that a first one has left. -/
structure Repeats (edits : EditSet) (root : Path) (disk final : Disk)
    (first second : ApplyOutcome) : Prop where
  changed : List.Forall₂ (fun edit result =>
      final.bytes? (edit.fileIn root) ≠ disk.bytes? (edit.fileIn root) →
        ∃ bytes, final.bytes? (edit.fileIn root) = some bytes ∧
          result.Stopped edit bytes second.record.preconditions.mismatches)
    edits.edited second.record.results
  blocked : List.Forall₂ (fun before after => before.status = .blocked → after.status = .blocked)
    first.record.results second.record.results
  isBlocked : (∃ edit ∈ edits.edited,
      final.bytes? (edit.fileIn root) ≠ disk.bytes? (edit.fileIn root)) →
    second.isBlocked = true

/-- A second run of a plan with digests changes nothing, and is blocked if the first one changed
anything. -/
theorem run_repeats {task : ApplyTask} {tool tool' : Tool} {now now' : Timestamp}
    {disk final : Disk} {plan : RepairPlan} {first : ApplyOutcome} (real : task.dryRun = false)
    (held : Holds disk task.directory plan) (unblocked : plan.blocked = false)
    (clean : plan.policy.requireCleanHashes = true)
    (hashed : ∀ edit ∈ plan.edits.edited, edit.sha256.isSome = true)
    (apart : plan.edits.LeadApart disk task.root)
    (ran : (run task tool now : Attempt (StateM Disk) _).Yields disk first final)
    (stays : Holds final task.directory plan)
    (distinct : ∀ edit ∈ plan.edits.edited, ∀ before after,
      disk.bytes? (edit.fileIn task.root) = some before →
        final.bytes? (edit.fileIn task.root) = some after →
          before ≠ after → Digest.sha256 before ≠ Digest.sha256 after) :
    ∃ second, (run task tool' now' : Attempt (StateM Disk) _).Yields final second final ∧
      Repeats plan.edits task.root disk final first second := by
  have writing : ¬ task.dryRun = true := by simp [real]
  rcases (yields_run_iff held unblocked).mp ran with ⟨outcomes, meets, rfl, left⟩
  rw [if_neg writing] at left
  have rewritten := EditSet.rewritten_of_yields apart meets left
  rcases EditSet.exists_repeats clean hashed apart meets rewritten distinct with
    ⟨again, meetsAgain, repeats⟩
  have meetsFinal : List.Forall₂ (FileEdit.Meets final task.root (options task plan))
      plan.edits.edited again := meetsAgain.imp fun _ _ both => both.1
  have apartFinal := (rewritten.leadApart apart).apart meetsFinal
  have nothing := Outcomes.modified_of_repeats apartFinal repeats
  have stopped := EditSet.results_stopped task.dryRun meetsAgain
  refine ⟨outcomeOf task plan tool' now' again,
    (yields_run_iff stays unblocked).mpr ⟨again, meetsFinal, rfl, ?_⟩, stopped, ?_, ?_⟩
  · rw [if_neg writing, nothing]
    exact yields_forM_nil_iff.mpr rfl
  · show List.Forall₂ _ (outcomes.map fun outcome => outcome.result task.dryRun)
      (again.map fun outcome => outcome.result task.dryRun)
    rw [real, List.forall₂_map_left_iff, List.forall₂_map_right_iff]
    exact repeats.imp fun _ _ rest => rest.blocked
  · rintro ⟨edit, member, differs⟩
    rcases stopped.exists_of_mem member with ⟨result, held, stops⟩
    rcases stops differs with ⟨_, _, stopped⟩
    rw [outcomeOf, Option.isSome_iff_ne_none, ne_eq, Outcomes.policyBlock?_record]
    exact fun none => none result held stopped.status

/-! The workshop with a plan for its files. One file is as it was planned for, the other one is not.
-/

def workshopPlan : RepairPlan :=
  { tool := ⟨"absfix", none⟩
    policy := { requireCleanHashes := true }
    edits :=
      { files := EditSet.workshop.files.map fun file =>
          { file with
            sha256 := some (file.sha256.getD (Digest.sha256OfText "class Circle \x7b\n\x7d\n")) } }
    summary := {} }

def plannedWorkshop : Disk :=
  { nodes :=
      (["work", "plans"], .directory) ::
        (["work", "plans", "plan.json"], .file (Text.utf8Bytes workshopPlan.toJson.print)) ::
          Disk.workshop.nodes
    current := ["work"] }

def workshopTask : ApplyTask :=
  { root := ⟨"."⟩, directory := ⟨"plans"⟩, dryRun := false }

theorem run_repeats_workshop :
    ∃ first final second,
      (run workshopTask ⟨"absfix", none⟩ default : Attempt (StateM Disk) _).Yields plannedWorkshop
        first final ∧
      (run workshopTask ⟨"absfix", none⟩ default : Attempt (StateM Disk) _).Yields final
        second final ∧
      final.bytes? ⟨"shapes.ts"⟩ ≠ plannedWorkshop.bytes? ⟨"shapes.ts"⟩ ∧
      Repeats workshopPlan.edits workshopTask.root plannedWorkshop final first second := by
  have apart : workshopPlan.edits.LeadApart plannedWorkshop workshopTask.root := by decide +kernel
  have located : plannedWorkshop.locate? (workshopTask.directory / "plan.json") =
      some ["work", "plans", "plan.json"] := by
    decide +kernel
  have held : Holds plannedWorkshop workshopTask.directory workshopPlan :=
    holds_of_locate? located rfl
  have readable : ∀ edit ∈ workshopPlan.edits.edited,
      (plannedWorkshop.text? (edit.fileIn workshopTask.root)).isSome = true := by
    decide +kernel
  have seen : ∃ outcomes, List.Forall₂ (FileEdit.Meets plannedWorkshop workshopTask.root
      (options workshopTask workshopPlan)) workshopPlan.edits.edited outcomes :=
    EditSet.exists_meets_iff.mpr fun edit member =>
      Option.isSome_iff_exists.mp (readable edit member)
  rcases seen with ⟨outcomes, meets⟩
  rcases EditSet.exists_rewritten apart meets with ⟨final, writes, rewritten⟩
  have ran : (run workshopTask ⟨"absfix", none⟩ default : Attempt (StateM Disk) _).Yields
      plannedWorkshop (outcomeOf workshopTask workshopPlan ⟨"absfix", none⟩ default outcomes)
        final :=
    (yields_run_iff held rfl).mpr ⟨outcomes, meets, rfl, writes⟩
  have left : final = ((workshopPlan.edits.apply workshopTask.root ⟨"absfix", none⟩
      (options workshopTask workshopPlan) default : Attempt (StateM Disk) _).on
        plannedWorkshop).2 := by
    rw [EditSet.yields_apply_iff.mpr ⟨outcomes, meets, rfl, rfl, writes⟩]
  have changed : final.bytes? ⟨"shapes.ts"⟩ ≠ plannedWorkshop.bytes? ⟨"shapes.ts"⟩ := by
    rw [left]
    decide +kernel
  have digests : ∀ edit ∈ workshopPlan.edits.edited,
      plannedWorkshop.bytes? (edit.fileIn workshopTask.root) =
          final.bytes? (edit.fileIn workshopTask.root) ∨
        (plannedWorkshop.bytes? (edit.fileIn workshopTask.root)).map Digest.sha256 ≠
          (final.bytes? (edit.fileIn workshopTask.root)).map Digest.sha256 := by
    rw [left]
    decide +kernel
  have distinct : ∀ edit ∈ workshopPlan.edits.edited, ∀ before after,
      plannedWorkshop.bytes? (edit.fileIn workshopTask.root) = some before →
        final.bytes? (edit.fileIn workshopTask.root) = some after →
          before ≠ after → Digest.sha256 before ≠ Digest.sha256 after := by
    intro edit member before after before' after' different same
    rcases digests edit member with equal | unequal
    · exact different (Option.some.inj (before'.symm.trans (equal.trans after')))
    · exact unequal (by rw [before', after', Option.map_some, Option.map_some, same])
  have stays : Holds final workshopTask.directory workshopPlan :=
    held.stays apart meets rewritten (by decide +kernel)
  rcases run_repeats rfl held rfl rfl (by decide +kernel) apart ran stays distinct with
    ⟨second, again, repeats⟩
  exact ⟨_, final, second, ran, again, changed, repeats⟩

end Applying

end MemberStubs
