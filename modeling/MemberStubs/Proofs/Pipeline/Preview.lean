import MemberStubs.Proofs.Pipeline.Applying
import MemberStubs.Proofs.Pipeline.Planning
import MemberStubs.Proofs.Repair.Exactness
import MemberStubs.Proofs.Store.Artifacts

/-! What was previewed is what is applied. A stored plan is read back as it was made. As long as its
files are what they were, each of them passes the hash check and has the outcome that the preview
saw, in a dry run and in a real one. -/

namespace MemberStubs

open Attempt

/-- Two results agree but for what they say about writing. -/
structure FileResult.Agrees (first second : FileResult) : Prop where
  path : first.path = second.path
  classes : first.classes = second.classes
  stubsInserted : first.stubsInserted = second.stubsInserted
  sha256Before : first.sha256Before = second.sha256Before
  sha256After : first.sha256After = second.sha256After
  blocked : first.status = .blocked ↔ second.status = .blocked

theorem FileOutcome.result_agrees (outcome : FileOutcome) :
    (outcome.result true).Agrees (outcome.result false) := by
  rw [result, result]
  cases outcome.change with
  | changed => exact ⟨rfl, rfl, rfl, rfl, rfl, Iff.rfl⟩
  | misfit misfit => exact ⟨rfl, rfl, rfl, rfl, rfl, Iff.rfl⟩
  | rendered text => exact ⟨rfl, rfl, rfl, rfl, rfl, iff_of_false (by simp) (by simp)⟩

/-! ## The stored plan -/

namespace PlanOutcome

def artifactNames : List String :=
  ["plan.json", "edits.json", "plan.md", "patch.diff"]

theorem paths_artifacts (planned : PlanOutcome) (directory : Path) :
    (planned.artifacts directory).files.map Prod.fst = artifactNames.map (directory / ·) := rfl

/-- The artifacts have names of their own, so the plan is not lost among them. -/
theorem holds_of_stored {planned : PlanOutcome} {directory : Path} {disk stored : Disk}
    (stores : ((planned.artifacts directory).store : Attempt (StateM Disk) _).Yields disk ()
      stored) :
    stored.bytes? (directory / "plan.json") =
      some (Text.utf8Bytes planned.plan.toJson.print) := by
  rcases Artifacts.stored_of_yields stores with ⟨held, all⟩
  have valid : ∀ name ∈ artifactNames, Path.Component.IsName name.toList := by
    unfold Path.Component.IsName
    decide
  have there : ∀ name ∈ artifactNames, ∃ location,
      stored.locate? (directory / name) = some location := by
    intro name member
    have path : directory / name ∈ (planned.artifacts directory).files.map Prod.fst :=
      paths_artifacts planned directory ▸ List.mem_map_of_mem member
    rcases List.mem_map.mp path with ⟨file, listed, same⟩
    exact same ▸ held.located file listed
  have apart : ((planned.artifacts directory).files.map Prod.fst).Pairwise fun first second =>
      stored.locate? first ≠ stored.locate? second := by
    rw [paths_artifacts, List.pairwise_map]
    exact Disk.pairwise_locate?_names valid (by decide) there
  have listed : (directory / "plan.json", planned.plan.toJson.print) ∈
      (planned.artifacts directory).files := List.mem_cons_self ..
  have distinct := List.pairwise_map.mp apart
  exact all distinct (directory / "plan.json", planned.plan.toJson.print) listed

end PlanOutcome

/-! ## Runs of the plan -/

namespace Applying

/-- On a disk where the files of an unblocked plan are what they were, and where the plan is stored,
a run of the plan sees the outcomes of the preview. -/
theorem meets_of_previews {root : Path} {settings : Settings} {disk later : Disk}
    {planned : PlanOutcome} {outcomes : List FileOutcome} {task : ApplyTask}
    (previews : Planning.Previews root settings disk planned outcomes)
    (indent : task.indentUnit = settings.indentUnit) (newline : task.newline = settings.newline)
    (same : ∀ edit ∈ planned.plan.edits.edited, ∀ bytes,
      disk.bytes? (edit.fileIn root) = some bytes → later.bytes? (edit.fileIn root) = some bytes) :
    List.Forall₂ (FileEdit.Meets later root (options task planned.plan))
      planned.plan.edits.edited outcomes := by
  refine List.forall₂_iff_zip.mpr ⟨previews.meets.length_eq, fun {edit outcome} pair => ?_⟩
  have member := (List.of_mem_zip pair).1
  rcases List.forall₂_zip previews.meets pair with ⟨contents, read, rfl⟩
  have held := Disk.text?_eq_some_iff.mp read
  refine ⟨contents, Disk.text?_eq_some_iff.mpr (same edit member _ held), ?_⟩
  refine FileOutcome.of_congr nofun (fun clean => ?_) indent.symm newline.symm
  have asked : settings.requireCleanHashes = true := by
    rw [← clean, options, previews.policy]
    rfl
  exact previews.hashes asked edit member (options task planned.plan) _ held clean

/-- What a dry run and a real run of a plan do, compared with the preview that came with the plan.
-/
structure AsPreviewed (root : Path) (final : Disk) (patch : String)
    (outcomes : List FileOutcome) (dry real : ApplyOutcome) : Prop where
  dryPatch : dry.patch = patch
  realPatch : real.patch = patch
  results : List.Forall₂ FileResult.Agrees dry.record.results real.record.results
  rendered : ∀ outcome ∈ outcomes, ∀ text, outcome.change = .rendered text →
    final.bytes? (outcome.edit.fileIn root) = some (Text.utf8Bytes text)

/-- A stored plan whose files stay as they are does what was previewed, in a dry run and in a real
one. -/
theorem run_asPreviewed {settings : Settings} {source : ReportSource}
    {programSource : ProgramSource} {tool tool' : Tool} {task : ApplyTask}
    {disk planDisk stored later : Disk} {planned : PlanOutcome}
    (ran : (Planning.run task.root settings source programSource tool :
      Attempt (StateM Disk) _).Yields disk planned planDisk)
    (unblocked : planned.plan.blocked = false)
    (stores : ((planned.artifacts task.directory).store : Attempt (StateM Disk) _).Yields planDisk
      () stored)
    (indent : task.indentUnit = settings.indentUnit) (newline : task.newline = settings.newline)
    (away : ∀ edit ∈ planned.plan.edits.edited, ∀ file ∈ (planned.artifacts task.directory).files,
      stored.locate? (edit.fileIn task.root) ≠ stored.locate? file.1)
    (sources : ∀ edit ∈ planned.plan.edits.edited,
      later.bytes? (edit.fileIn task.root) = stored.bytes? (edit.fileIn task.root))
    (kept : later.bytes? (task.directory / "plan.json") =
      stored.bytes? (task.directory / "plan.json"))
    (apart : planned.plan.edits.LeadApart later task.root) (now now' : Timestamp) :
    ∃ outcomes dry real final,
      (planned.plan.edits.outcomes task.root (Planning.previewOptions settings) :
        Attempt (StateM Disk) _).Yields planDisk outcomes planDisk ∧
      (run { task with dryRun := true } tool' now : Attempt (StateM Disk) _).Yields later dry
        later ∧
      (run { task with dryRun := false } tool' now' : Attempt (StateM Disk) _).Yields later real
        final ∧
      AsPreviewed task.root final planned.patch outcomes dry real := by
  rcases Planning.exists_previews_of_yields_run ran unblocked with ⟨outcomes, previews⟩
  have same : ∀ edit ∈ planned.plan.edits.edited, ∀ bytes,
      planDisk.bytes? (edit.fileIn task.root) = some bytes →
        later.bytes? (edit.fileIn task.root) = some bytes := by
    intro edit member bytes held
    rw [sources edit member]
    exact (Artifacts.stored_of_yields stores).1.bytes? held (away edit member)
  have stored' := kept.trans (PlanOutcome.holds_of_stored stores)
  have held : Holds later task.directory planned.plan :=
    ⟨planned.plan.toJson.print, Disk.text?_eq_some_iff.mpr stored',
      RepairPlan.roundTrips.decode?_print planned.plan⟩
  have meets (dryRun : Bool) : List.Forall₂ (FileEdit.Meets later task.root
      (options { task with dryRun } planned.plan)) planned.plan.edits.edited outcomes :=
    meets_of_previews previews indent newline same
  rcases EditSet.exists_rewritten apart (meets false) with ⟨final, writes, rewritten⟩
  have runs (dryRun : Bool) (now : Timestamp) (next : Disk) (outcome : ApplyOutcome) :=
    @yields_run_iff { task with dryRun } tool' now later next planned.plan outcome held unblocked
  have dryRan := (runs true now later _).mpr ⟨outcomes, meets true, rfl, rfl⟩
  have realRan := (runs false now' final _).mpr ⟨outcomes, meets false, rfl, writes⟩
  refine ⟨outcomes, _, _, final, EditSet.yields_outcomes_iff.mpr ⟨previews.meets, rfl⟩, dryRan,
    realRan, previews.patch.symm, previews.patch.symm, ?_, ?_⟩
  · show List.Forall₂ _ (outcomes.map fun outcome => outcome.result true)
      (outcomes.map fun outcome => outcome.result false)
    rw [List.forall₂_map_left_iff, List.forall₂_map_right_iff, List.forall₂_same]
    exact fun outcome _ => outcome.result_agrees
  · intro outcome member text rendered
    rw [← FileOutcome.textAfter_of_rendered rendered]
    exact EditSet.bytes?_of_rewritten apart (meets false) rewritten member

/-! A drawing with the circle, which owes its label. The plan is stored next to the drawing. -/

def drawing : Disk :=
  { nodes :=
      [ (["work"], .directory), (["work", "src"], .directory),
        (["work", "src", "shapes.ts"],
          .file (Text.utf8Bytes "class Circle extends Ring \x7b\n\x7d\n")) ]
    current := ["work"] }

def drawingReport : LoadedReport :=
  { path := ⟨"report.json"⟩
    sourceId := "report"
    report := .ok
      { schema := "report"
        tool := ⟨"compiler", none⟩
        diagnostics := [{ code := 2515, file := ⟨"src/shapes.ts"⟩, start := 8 }] } }

def drawingTask : ApplyTask :=
  { root := ⟨"."⟩, directory := ⟨"plans"⟩ }

def planDrawing : Attempt (StateM Disk) PlanOutcome :=
  Planning.run drawingTask.root {} (.memory [drawingReport]) (.memory RepairsExactly.shapes)
    ⟨"absfix", none⟩

def storeDrawing : Attempt (StateM Disk) Unit :=
  (((planDrawing.on drawing).1.toOption.getD ⟨default, ""⟩).artifacts drawingTask.directory).store

theorem paths_drawing :
    (Planning.batchOf {} (Program.ofSnapshot RepairsExactly.shapes) [drawingReport]).edits.files.map
      FileEdit.path = [⟨"src/shapes.ts"⟩] := by
  let program := Program.ofSnapshot RepairsExactly.shapes
  let style : StubStyle := { policy := .throwStub, indentUnit := "    " }
  let target := ClassTarget.ofDecl ⟨"src/shapes.ts"⟩ RepairsExactly.circle
  have single : RepairsExactly.circle.bases = [⟨"Ring", []⟩] := rfl
  have heritage : Heritage RepairsExactly.shapes "Ring"
      [RepairsExactly.ring, RepairsExactly.shape] :=
    .step rfl rfl rfl (.root rfl rfl rfl)
  have alone : ∃ edits, repairOne program.typeModel style target = .ok (some edits) := by
    rcases exists_owed ⟨"src/shapes.ts"⟩ single heritage with ⟨owed, candidates, names, supports⟩
    rw [repairOne, repairClass_of_candidates style [] candidates]
    exact (repairsExactly_of_owed style rfl names supports).edits_iff.mpr
      ⟨"label", by decide +kernel, by decide +kernel⟩
  rcases alone with ⟨edits, alone⟩
  have first : program.firstTarget? ⟨"src/shapes.ts"⟩ target.key
      (Batch.sited (Reports.diagnostics [drawingReport]) ⟨"src/shapes.ts"⟩) = some target := by
    rfl
  have edited := Batch.mem_edited_paths_iff.mpr
    (Batch.classesAt_ne_nil_iff.mpr ⟨target.key, target, edits, first, alone⟩)
  have sublist := Batch.sublist_paths program style (Reports.diagnostics [drawingReport])
  have paths : Batch.paths (Reports.diagnostics [drawingReport]) = [⟨"src/shapes.ts"⟩] := by
    decide +kernel
  rw [paths] at sublist
  exact sublist.eq_of_length_le (List.length_pos_of_mem edited)

theorem loads_drawing : ((ReportSource.memory [drawingReport]).load : Attempt (StateM Disk) _).Yields
    drawing [drawingReport] drawing := by
  have other : (!Reports.isOwnOutput drawingReport) = true := by decide +kernel
  rw [ReportSource.load, Reports.inMemory, List.filter_singleton, other, cond_true,
    Reports.sorted, List.mergeSort_singleton, yields_pure_iff]
  exact ⟨rfl, rfl⟩

theorem models_drawing :
    ((ProgramSource.memory RepairsExactly.shapes).load : Attempt (StateM Disk) _).Yields drawing
      (Program.ofSnapshot RepairsExactly.shapes) drawing := rfl

theorem readable_drawing : ∀ edit ∈ (Planning.batchOf {} (Program.ofSnapshot RepairsExactly.shapes)
    [drawingReport]).edits.files, ∃ text,
      drawing.text? (edit.fileIn drawingTask.root) = some text := by
  have text : (drawing.text? (drawingTask.root.join ⟨"src/shapes.ts"⟩)).isSome = true := by
    decide +kernel
  intro edit member
  have path := paths_drawing ▸ List.mem_map_of_mem (f := FileEdit.path) member
  rw [FileEdit.fileIn, List.mem_singleton.mp path]
  exact Option.isSome_iff_exists.mp text

theorem exists_planned_drawing :
    ∃ planned, planDrawing.Yields drawing planned drawing ∧
      planned.plan.edits.edited.map FileEdit.path = [⟨"src/shapes.ts"⟩] ∧
      planned.plan.blocked = false := by
  rcases Planning.exists_yields_run ⟨"absfix", none⟩ loads_drawing models_drawing
    readable_drawing with ⟨digest, planned, ran, edited, unblocked⟩
  refine ⟨planned, ran, ?_, unblocked rfl rfl⟩
  rw [edited, List.map_map, ← paths_drawing]
  rfl

theorem exists_stored_drawing :
    ∃ stored, storeDrawing.Yields drawing () stored ∧
      ∀ name ∈ PlanOutcome.artifactNames,
        stored.locate? (drawingTask.root.join ⟨"src/shapes.ts"⟩) ≠
          stored.locate? (drawingTask.directory / name) := by
  have succeeds : (storeDrawing.on drawing).1.toOption.isSome = true := by decide +kernel
  have beside : ∀ name ∈ PlanOutcome.artifactNames,
      (storeDrawing.on drawing).2.locate? (drawingTask.root.join ⟨"src/shapes.ts"⟩) ≠
        (storeDrawing.on drawing).2.locate? (drawingTask.directory / name) := by
    decide +kernel
  rcases stores : storeDrawing.on drawing with ⟨_ | ⟨⟩, stored⟩
  · rw [stores] at succeeds
    cases succeeds
  · rw [stores] at beside
    exact ⟨stored, stores, beside⟩

theorem run_asPreviewed_drawing :
    ∃ planned stored outcomes dry real final,
      planDrawing.Yields drawing planned drawing ∧
      planned.plan.edits.edited.map FileEdit.path = [⟨"src/shapes.ts"⟩] ∧
      ((planned.artifacts drawingTask.directory).store : Attempt (StateM Disk) _).Yields drawing ()
        stored ∧
      (run { drawingTask with dryRun := true } ⟨"absfix", none⟩ default :
        Attempt (StateM Disk) _).Yields stored dry stored ∧
      (run { drawingTask with dryRun := false } ⟨"absfix", none⟩ default :
        Attempt (StateM Disk) _).Yields stored real final ∧
      AsPreviewed drawingTask.root final planned.patch outcomes dry real := by
  rcases exists_planned_drawing with ⟨planned, ran, edited, unblocked⟩
  rcases exists_stored_drawing with ⟨stored, stores, beside⟩
  have same : storeDrawing = (planned.artifacts drawingTask.directory).store := by
    rw [storeDrawing, ran]
    rfl
  rw [same] at stores
  have away : ∀ edit ∈ planned.plan.edits.edited,
      ∀ file ∈ (planned.artifacts drawingTask.directory).files,
        stored.locate? (edit.fileIn drawingTask.root) ≠ stored.locate? file.1 := by
    intro edit member file listed
    have path := edited ▸ List.mem_map_of_mem (f := FileEdit.path) member
    have place := PlanOutcome.paths_artifacts planned drawingTask.directory ▸
      List.mem_map_of_mem (f := Prod.fst) listed
    rcases List.mem_map.mp place with ⟨name, held, same⟩
    rw [FileEdit.fileIn, List.mem_singleton.mp path, ← same]
    exact beside name held
  have apart : planned.plan.edits.LeadApart stored drawingTask.root := by
    rcases List.map_eq_singleton_iff.mp edited with ⟨edit, sole, _⟩
    rw [EditSet.LeadApart, sole]
    exact List.pairwise_singleton ..
  rcases @run_asPreviewed _ _ _ _ ⟨"absfix", none⟩ drawingTask _ _ _ stored _ ran unblocked stores
    rfl rfl away (fun _ _ => rfl) rfl apart default default with
    ⟨outcomes, dry, real, final, _, dryRan, realRan, previewed⟩
  exact ⟨planned, stored, outcomes, dry, real, final, ran, edited, stores, dryRan, realRan,
    previewed⟩

end Applying

end MemberStubs
