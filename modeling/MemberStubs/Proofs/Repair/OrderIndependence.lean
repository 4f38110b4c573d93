import Mathlib.Data.List.Forall2
import MemberStubs.Proofs.Repair.Exactness
import MemberStubs.Proofs.Repair.Identity

/-! What a batch answers depends on where its diagnostics point and on nothing else about them: their
order, their number and the spelling of their paths only show in the order of the edits within a file
and in their triggers. -/

namespace MemberStubs

/-- Whatever the recognized diagnostics of the first list point at, some recognized diagnostic of the
second list points at as well. -/
def SitesWithin (first second : List Diagnostic) : Prop :=
  ∀ diagnostic ∈ first, diagnostic.isRecognized = true →
    ∃ other ∈ second, other.isRecognized = true ∧ diagnostic.file.sameFile other.file = true ∧
      diagnostic.start = other.start

def SameSites (first second : List Diagnostic) : Prop :=
  SitesWithin first second ∧ SitesWithin second first

instance (first second : List Diagnostic) : Decidable (SitesWithin first second) :=
  inferInstanceAs (Decidable (∀ diagnostic ∈ first, diagnostic.isRecognized = true →
    ∃ other ∈ second, other.isRecognized = true ∧ diagnostic.file.sameFile other.file = true ∧
      diagnostic.start = other.start))

instance (first second : List Diagnostic) : Decidable (SameSites first second) :=
  inferInstanceAs (Decidable (SitesWithin first second ∧ SitesWithin second first))

namespace Batch

variable {program : Program} {style : StubStyle} {first second : List Diagnostic}

theorem exists_sited (within : SitesWithin first second) {path : Path} {diagnostic : Diagnostic}
    (given : diagnostic ∈ sited first path) :
    ∃ other ∈ sited second path, other.start = diagnostic.start := by
  rcases mem_sited_iff.mp given with ⟨member, recognized, atPath⟩
  rcases within diagnostic member recognized with ⟨other, member', recognized', sameFile, start⟩
  have atPath' : other.file.normalize = path := by
    rw [← Path.sameFile_iff.mp sameFile, atPath]
  exact ⟨other, mem_sited_iff.mpr ⟨member', recognized', atPath'⟩, start.symm⟩

theorem firstTarget?_of_within (distinct : program.snapshot.DistinctStarts)
    (within : SitesWithin first second) {path : Path} {key : ClassKey} {target : ClassTarget}
    (seen : program.firstTarget? path key (sited first path) = some target) :
    program.firstTarget? path key (sited second path) = some target := by
  rcases Program.firstTarget?_eq_some_iff.mp seen with ⟨member, rfl⟩
  rcases Program.exists_of_mem_firstTargets member with ⟨diagnostic, given, found⟩
  rcases exists_sited within given with ⟨other, given', start⟩
  rw [← start] at found
  exact Program.firstTarget?_of_located distinct given' found

/-! ## Edits -/

theorem edited_path_of_within (distinct : program.snapshot.DistinctStarts)
    (within : SitesWithin first second) {path : Path}
    (edited : path ∈ (repairAll program style first).edits.files.map FileEdit.path) :
    path ∈ (repairAll program style second).edits.files.map FileEdit.path := by
  rw [mem_edited_paths_iff, classesAt_ne_nil_iff] at edited ⊢
  rcases edited with ⟨key, target, edits, seen, alone⟩
  exact ⟨key, target, edits, firstTarget?_of_within distinct within seen, alone⟩

theorem class_of_within (distinct : program.snapshot.DistinctStarts)
    (within : SitesWithin first second) {path : Path} {bare : ClassEdit}
    (held : bare ∈ (classesAt program style first path).map (·.withTriggers [])) :
    bare ∈ (classesAt program style second path).map (·.withTriggers []) := by
  rcases List.mem_map.mp held with ⟨edit, member, rfl⟩
  rcases mem_classesAt_iff.mp member with ⟨target, sole, seen, alone, whole⟩
  have keyed := (Program.firstTarget?_eq_some_iff.mp seen).2
  have again := firstTarget?_of_within distinct within seen
  rw [← keyed] at again
  rw [whole]
  exact List.mem_map.mpr ⟨_, mem_classesAt again alone, rfl⟩

theorem nodup_bare_classesAt (program : Program) (style : StubStyle)
    (diagnostics : List Diagnostic) (path : Path) :
    ((classesAt program style diagnostics path).map (·.withTriggers [])).Nodup := by
  have keys := FileRepair.nodup_keys_classesOf program style path (sited diagnostics path)
  apply List.Nodup.of_map ClassEdit.key
  rw [List.map_map]
  exact keys

theorem perm_bare_classesAt (distinct : program.snapshot.DistinctStarts)
    (same : SameSites first second) (path : Path) :
    ((classesAt program style first path).map (·.withTriggers [])).Perm
      ((classesAt program style second path).map (·.withTriggers [])) := by
  refine (List.perm_ext_iff_of_nodup (nodup_bare_classesAt ..) (nodup_bare_classesAt ..)).mpr ?_
  exact fun bare => ⟨class_of_within distinct same.1, class_of_within distinct same.2⟩

theorem edited_paths_eq (distinct : program.snapshot.DistinctStarts)
    (same : SameSites first second) :
    (repairAll program style first).edits.files.map FileEdit.path =
      (repairAll program style second).edits.files.map FileEdit.path := by
  apply Path.eq_of_increasing
  · exact (paths_increasing first).sublist (sublist_paths program style first)
  · exact (paths_increasing second).sublist (sublist_paths program style second)
  · exact fun path => ⟨edited_path_of_within distinct same.1, edited_path_of_within distinct same.2⟩

/-- The edits of a batch as a function of their paths. -/
theorem files_eq (program : Program) (style : StubStyle) (diagnostics : List Diagnostic) :
    (repairAll program style diagnostics).edits.files =
      ((repairAll program style diagnostics).edits.files.map FileEdit.path).map fun path =>
        { path, classes := classesAt program style diagnostics path } := by
  rw [List.map_map]
  refine (List.map_id _).symm.trans (List.map_congr_left fun file member => ?_)
  exact (mem_files_iff.mp member).2

/-! ## Failures -/

/-- A class that cannot be repaired fails once it is located. -/
theorem mem_errors_of_located (distinct : program.snapshot.DistinctStarts)
    {diagnostics : List Diagnostic} {path : Path} {diagnostic : Diagnostic}
    (given : diagnostic ∈ sited diagnostics path) {error : RepairError}
    (fails : program.findClassAt path diagnostic.start = .error error ∨
      ∃ target, program.findClassAt path diagnostic.start = .ok target ∧
        repairOne program.typeModel style target = .error error) :
    error ∈ (repairAll program style diagnostics).failures.map ClassFailure.error := by
  have atPath : ∃ failure ∈ failuresAt program style diagnostics path, failure.error = error := by
    rcases fails with missing | ⟨target, found, alone⟩
    · rcases Program.exists_mem_sights given with ⟨earlier, entry⟩
      refine ⟨⟨diagnostic, none, error⟩, List.mem_filterMap.mpr ⟨_, entry, ?_⟩, rfl⟩
      rw [Program.sight, missing]
      rfl
    · have seen := Program.firstTarget?_of_located distinct given found
      rcases Program.exists_sight_of_mem_firstTargets
        (Program.firstTarget?_eq_some_iff.mp seen).1 with ⟨first, entry⟩
      refine ⟨⟨first, target.name, error⟩, List.mem_filterMap.mpr ⟨_, entry, ?_⟩, rfl⟩
      rw [FileRepair.failureOf?, alone]
  rcases atPath with ⟨failure, failed, rfl⟩
  have isPath := mem_paths_of_mem_sited given
  rw [repairAll_eq]
  exact List.mem_map.mpr ⟨failure, List.mem_flatMap.mpr ⟨path, isPath, failed⟩, rfl⟩

theorem error_of_within (distinct : program.snapshot.DistinctStarts)
    (within : SitesWithin first second) {error : RepairError}
    (failed : error ∈ (repairAll program style first).failures.map ClassFailure.error) :
    error ∈ (repairAll program style second).failures.map ClassFailure.error := by
  rcases List.mem_map.mp failed with ⟨failure, member, rfl⟩
  rcases exists_of_mem_failures member with ⟨given, fails⟩
  rcases exists_sited within given with ⟨other, given', start⟩
  rw [← start] at fails
  exact mem_errors_of_located distinct given' fails

end Batch

/-- Batches that differ at most in the order of the classes within a file, in the triggers, and in
the diagnostics that the failures stand with. -/
structure Batch.Alike (batch other : Batch) : Prop where
  files : List.Forall₂ (fun file file' => file.path = file'.path ∧ file.sha256 = file'.sha256 ∧
      (file.classes.map (·.withTriggers [])).Perm (file'.classes.map (·.withTriggers [])))
    batch.edits.files other.edits.files
  error_iff : ∀ error, error ∈ batch.failures.map ClassFailure.error ↔
    error ∈ other.failures.map ClassFailure.error

theorem repairAll_alike (snapshot : Snapshot) (style : StubStyle) {first second : List Diagnostic}
    (distinct : snapshot.DistinctStarts) (same : SameSites first second) :
    (repairAll (Program.ofSnapshot snapshot) style first).Alike
      (repairAll (Program.ofSnapshot snapshot) style second) := by
  refine ⟨?_, fun error => ⟨Batch.error_of_within distinct same.1,
    Batch.error_of_within distinct same.2⟩⟩
  rw [Batch.files_eq _ style first, Batch.files_eq _ style second,
    Batch.edited_paths_eq distinct same, List.forall₂_map_left_iff, List.forall₂_map_right_iff,
    List.forall₂_same]
  exact fun path _ => ⟨rfl, rfl, Batch.perm_bare_classesAt distinct same path⟩

namespace SameSites

def shapes : List Diagnostic :=
  [{ code := 2515, file := ⟨"src/shapes.ts"⟩, start := 8 },
    { code := 2515, file := ⟨"src/shapes.ts"⟩, start := 117 }]

/-- In another order, spelled in other ways, repeated, and between others that do not count. -/
def shapesAgain : List Diagnostic :=
  [{ code := 2653, file := ⟨"./src//shapes.ts"⟩, start := 117 },
    { code := 2304, file := ⟨"src/other.ts"⟩, start := 0 },
    { code := 2515, file := ⟨"src/lib/../shapes.ts"⟩, start := 8 },
    { code := 2515, file := ⟨"src/shapes.ts"⟩, start := 117 }]

theorem repairAll_alike_shapes :
    RepairsExactly.shapes.DistinctStarts ∧ SameSites shapes shapesAgain ∧
      (repairAll (Program.ofSnapshot RepairsExactly.shapes) {} shapes).Alike
        (repairAll (Program.ofSnapshot RepairsExactly.shapes) {} shapesAgain) := by
  have distinct : RepairsExactly.shapes.DistinctStarts := by decide
  have same : SameSites shapes shapesAgain := by decide +kernel
  exact ⟨distinct, same, repairAll_alike RepairsExactly.shapes {} distinct same⟩

end SameSites

end MemberStubs
