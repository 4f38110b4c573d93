import MemberStubs.Proofs.Repair.Grouping
import MemberStubs.Proofs.Repair.Tally

/-! A batch is the repair of single classes, each done once. The main statement lists the edits and
the failures of a batch file by file, says which classes and which paths have edits, and accounts for
every recognized diagnostic. -/

namespace MemberStubs

/-- Values that are shared out by their keys, with none left over. -/
theorem perm_flatMap_filter [DecidableEq κ] {key : α → κ} {keys : List κ} (nodup : keys.Nodup)
    {values : List α} (covered : ∀ value ∈ values, key value ∈ keys) :
    values.Perm (keys.flatMap fun one => values.filter fun value => key value = one) := by
  induction values with
  | nil => simp
  | cons value later induction =>
      have share : (keys.flatMap fun one => (value :: later).filter fun other => key other = one) =
          keys.flatMap fun one =>
            (if key value = one then [value] else []) ++ later.filter fun other => key other = one := by
        congr 1
        funext one
        by_cases same : key value = one <;> simp [same]
      have alone : (keys.flatMap fun one => if key value = one then [value] else []) = [value] := by
        have distinct : (keys.map id).Nodup := by rwa [List.map_id]
        refine (flatMap_of_nodup distinct (covered value (List.mem_cons_self ..)) ?_).trans
          (if_pos rfl)
        intro other different
        exact if_neg (Ne.symm different)
      have rest := induction fun other member => covered other (List.mem_cons_of_mem _ member)
      rw [share]
      refine List.Perm.trans ?_ (List.flatMap_append_perm keys _ _)
      rw [alone]
      exact rest.cons value

namespace Batch

section

variable (program : Program) (style : StubStyle)

def classesAt (diagnostics : List Diagnostic) (path : Path) : List ClassEdit :=
  FileRepair.classesOf program style path (sited diagnostics path)

def failuresAt (diagnostics : List Diagnostic) (path : Path) : List ClassFailure :=
  FileRepair.failuresOf program style path (sited diagnostics path)

def silentAt (diagnostics : List Diagnostic) (path : Path) : List Diagnostic :=
  FileRepair.silentOf program style path (sited diagnostics path)

def fileEdit? (diagnostics : List Diagnostic) (path : Path) : Option FileEdit :=
  if classesAt program style diagnostics path = [] then none
  else some { path, classes := classesAt program style diagnostics path }

end

variable {program : Program} {style : StubStyle} {diagnostics : List Diagnostic}

theorem foldl_addGroup (program : Program) (style : StubStyle) (diagnostics : List Diagnostic)
    (paths : List Path) (batch : Batch) :
    (paths.map fun path => (path, sited diagnostics path)).foldl (addGroup program style) batch =
      { edits := { batch.edits with
          files := batch.edits.files ++ paths.filterMap (fileEdit? program style diagnostics) }
        failures := batch.failures ++ paths.flatMap (failuresAt program style diagnostics) } := by
  induction paths generalizing batch with
  | nil => simp
  | cons path paths induction =>
      have accounts := FileRepair.accounts_repairFile program style path (sited diagnostics path)
      rw [List.map_cons, List.foldl_cons, induction, addGroup, addFile, accounts.classes,
        accounts.failures, List.filterMap_cons, List.flatMap_cons, fileEdit?]
      by_cases nothing : classesAt program style diagnostics path = []
      · have empty := nothing
        rw [classesAt] at empty
        simp [nothing, empty, failuresAt]
      · have something := nothing
        rw [classesAt] at something
        simp [something, failuresAt, classesAt]

theorem repairAll_eq (program : Program) (style : StubStyle) (diagnostics : List Diagnostic) :
    repairAll program style diagnostics =
      { edits := { files := (paths diagnostics).filterMap (fileEdit? program style diagnostics) }
        failures := (paths diagnostics).flatMap (failuresAt program style diagnostics) } := by
  rw [repairAll, entries_byFile, foldl_addGroup]
  rfl

/-! ## What has an edit -/

theorem soleEdit?_eq_some_iff {target : ClassTarget} {edit : ClassEdit} :
    program.soleEdit? style target = some edit ↔
      repairOne program.typeModel style target =
        .ok (some { files := [{ path := target.key.file, classes := [edit] }] }) := by
  rw [Program.soleEdit?]
  rcases repairOne_cases program.typeModel style target [] with
    ⟨alone, _⟩ | ⟨_, alone, _⟩ | ⟨sole, alone, _, _⟩
  · simp [alone]
  · simp [alone]
  · simp [alone, EditSet.classes]

theorem mem_classesAt {path : Path} {target : ClassTarget} {sole : ClassEdit}
    (first : program.firstTarget? path target.key (sited diagnostics path) = some target)
    (alone : repairOne program.typeModel style target =
      .ok (some { files := [{ path, classes := [sole] }] })) :
    sole.withTriggers
        (FileRepair.triggersOf program path (sited diagnostics path) target.key) ∈
      classesAt program style diagnostics path := by
  have member := (Program.firstTarget?_eq_some_iff.mp first).1
  refine List.mem_filterMap.mpr ⟨target, member, ?_⟩
  rw [← FileRepair.file_of_mem_firstTargets member, ← soleEdit?_eq_some_iff] at alone
  rw [FileRepair.editOf?, alone]
  rfl

theorem mem_classesAt_iff {path : Path} {edit : ClassEdit} :
    edit ∈ classesAt program style diagnostics path ↔
      ∃ target sole,
        program.firstTarget? path edit.key (sited diagnostics path) = some target ∧
        repairOne program.typeModel style target =
          .ok (some { files := [{ path, classes := [sole] }] }) ∧
        edit = sole.withTriggers
          (FileRepair.triggersOf program path (sited diagnostics path) edit.key) := by
  constructor
  · intro held
    rcases List.mem_filterMap.mp held with ⟨target, member, repaired⟩
    have keyed := FileRepair.key_of_editOf? repaired
    rcases Option.map_eq_some_iff.mp repaired with ⟨sole, alone, rfl⟩
    rw [soleEdit?_eq_some_iff, FileRepair.file_of_mem_firstTargets member] at alone
    exact ⟨target, sole, Program.firstTarget?_eq_some_iff.mpr ⟨member, keyed.symm⟩, alone,
      by rw [keyed]⟩
  · rintro ⟨target, sole, first, alone, whole⟩
    have keyed := (Program.firstTarget?_eq_some_iff.mp first).2
    rw [whole, ← keyed]
    exact mem_classesAt (keyed ▸ first) alone

theorem mem_files_iff {file : FileEdit} :
    file ∈ (repairAll program style diagnostics).edits.files ↔
      classesAt program style diagnostics file.path ≠ [] ∧
        file = { path := file.path, classes := classesAt program style diagnostics file.path } := by
  rw [repairAll_eq]
  simp only [List.mem_filterMap, fileEdit?]
  constructor
  · rintro ⟨path, _, found⟩
    split at found
    · cases found
    · next something =>
        cases found
        exact ⟨something, rfl⟩
  · rintro ⟨something, whole⟩
    refine ⟨file.path, ?_, by rw [if_neg something]; exact congrArg some whole.symm⟩
    have sees : sited diagnostics file.path ≠ [] := by
      intro nothing
      rw [classesAt, nothing] at something
      exact something rfl
    rcases List.exists_mem_of_ne_nil _ sees with ⟨diagnostic, given⟩
    exact mem_paths_of_mem_sited given

theorem mem_edited_paths_iff {path : Path} :
    path ∈ (repairAll program style diagnostics).edits.files.map FileEdit.path ↔
      classesAt program style diagnostics path ≠ [] := by
  rw [List.mem_map]
  constructor
  · rintro ⟨file, member, rfl⟩
    exact (mem_files_iff.mp member).1
  · intro something
    exact ⟨⟨path, none, classesAt program style diagnostics path⟩,
      mem_files_iff.mpr ⟨something, rfl⟩, rfl⟩

theorem classesAt_ne_nil_iff {path : Path} :
    classesAt program style diagnostics path ≠ [] ↔
      ∃ key target edits,
        program.firstTarget? path key (sited diagnostics path) = some target ∧
        repairOne program.typeModel style target = .ok (some edits) := by
  constructor
  · intro something
    rcases List.exists_mem_of_ne_nil _ something with ⟨edit, member⟩
    rcases mem_classesAt_iff.mp member with ⟨target, sole, first, alone, _⟩
    exact ⟨edit.key, target, _, first, alone⟩
  · rintro ⟨key, target, edits, first, alone⟩
    rcases Program.firstTarget?_eq_some_iff.mp first with ⟨member, rfl⟩
    rcases repairOne_cases program.typeModel style target [] with
      ⟨answer, _⟩ | ⟨_, answer, _⟩ | ⟨sole, answer, _, _⟩
    · simp [alone] at answer
    · simp [alone] at answer
    · rw [FileRepair.file_of_mem_firstTargets member] at answer
      exact List.ne_nil_of_mem (mem_classesAt first answer)

/-- A failure stands with a diagnostic that locates nothing or whose class cannot be repaired. -/
theorem exists_of_mem_failures {failure : ClassFailure}
    (member : failure ∈ (repairAll program style diagnostics).failures) :
    failure.diagnostic ∈ sited diagnostics failure.diagnostic.file.normalize ∧
      (program.findClassAt failure.diagnostic.file.normalize failure.diagnostic.start =
          .error failure.error ∨
        ∃ target, program.findClassAt failure.diagnostic.file.normalize failure.diagnostic.start =
            .ok target ∧
          repairOne program.typeModel style target = .error failure.error) := by
  rw [repairAll_eq] at member
  rcases List.mem_flatMap.mp member with ⟨path, _, member⟩
  rcases List.mem_filterMap.mp member with ⟨⟨diagnostic, sight⟩, entry, failed⟩
  rcases Program.mem_sights entry with ⟨given, earlier, seen⟩
  have atPath : diagnostic.file.normalize = path := (mem_sited_iff.mp given).2.2
  simp only at seen failed
  rcases program.sight_cases path earlier diagnostic with
    ⟨error, sees, missing⟩ | ⟨target, sees, found, _⟩ | ⟨_, _, sees, _, _⟩
  · rw [seen, sees] at failed
    cases failed
    rw [atPath]
    exact ⟨given, Or.inl missing⟩
  · rw [seen, sees, FileRepair.failureOf?] at failed
    cases alone : repairOne program.typeModel style target with
    | error error =>
        simp only [alone] at failed
        cases failed
        rw [atPath]
        exact ⟨given, Or.inr ⟨target, found, alone⟩⟩
    | ok answer =>
        simp only [alone] at failed
        cases failed
  · rw [seen, sees] at failed
    cases failed

/-- The paths of the edits are among the paths of the batch, in the same order. -/
theorem sublist_paths (program : Program) (style : StubStyle) (diagnostics : List Diagnostic) :
    ((repairAll program style diagnostics).edits.files.map FileEdit.path).Sublist
      (paths diagnostics) := by
  rw [repairAll_eq]
  induction paths diagnostics with
  | nil => exact List.Sublist.refl _
  | cons path paths induction =>
      simp only [List.filterMap_cons, fileEdit?] at induction ⊢
      split
      · next found => exact induction.cons _
      · next file found =>
          split at found
          · cases found
          · cases found
            exact induction.cons_cons _

/-! ## The account of a batch -/

theorem perm_recognized (diagnostics : List Diagnostic) :
    (diagnostics.filter Diagnostic.isRecognized).Perm
      ((paths diagnostics).flatMap (sited diagnostics)) := by
  have nodup : (paths diagnostics).Nodup :=
    (paths_increasing diagnostics).imp fun before => before.ne
  rw [funext (sited_eq diagnostics)]
  apply perm_flatMap_filter nodup
  intro diagnostic kept
  rcases List.mem_filter.mp kept with ⟨given, recognized⟩
  exact mem_paths_iff.mpr ⟨diagnostic, given, recognized, rfl⟩

theorem flatMap_triggers_edits (program : Program) (style : StubStyle)
    (diagnostics : List Diagnostic) :
    (repairAll program style diagnostics).edits.classes.flatMap ClassEdit.triggers =
      (paths diagnostics).flatMap fun path =>
        (classesAt program style diagnostics path).flatMap ClassEdit.triggers := by
  rw [repairAll_eq, EditSet.classes, List.flatMap_assoc, List.filterMap_eq_flatMap_toList,
    List.flatMap_assoc]
  congr 1
  funext path
  rw [fileEdit?]
  split
  · next nothing => simp [nothing]
  · simp

/-- Values are shared out over keys in three parts, or all of them in one part after another. -/
theorem perm_flatMap_parts (keys : List κ) (first second third : κ → List α) :
    (keys.flatMap fun key => first key ++ (second key ++ third key)).Perm
      (keys.flatMap first ++ (keys.flatMap second ++ keys.flatMap third)) :=
  (List.flatMap_append_perm keys first fun key => second key ++ third key).symm.trans
    ((List.flatMap_append_perm keys second third).symm.append_left _)

theorem perm_account (program : Program) (style : StubStyle) (diagnostics : List Diagnostic) :
    ((diagnostics.filter Diagnostic.isRecognized).map Diagnostic.toRef).Perm
      ((repairAll program style diagnostics).edits.classes.flatMap ClassEdit.triggers ++
        ((repairAll program style diagnostics).failures.map (·.diagnostic.toRef) ++
          ((paths diagnostics).flatMap (silentAt program style diagnostics)).map
            Diagnostic.toRef)) := by
  have failures : (repairAll program style diagnostics).failures.map (·.diagnostic.toRef) =
      (paths diagnostics).flatMap fun path =>
        (failuresAt program style diagnostics path).map (·.diagnostic.toRef) := by
    rw [repairAll_eq, List.map_flatMap]
  rw [flatMap_triggers_edits, failures, List.map_flatMap]
  refine ((perm_recognized diagnostics).map Diagnostic.toRef).trans ?_
  rw [List.map_flatMap]
  refine List.Perm.trans ?_ (perm_flatMap_parts (paths diagnostics) _ _ _)
  exact List.Perm.flatMap_left _ fun path _ =>
    FileRepair.perm_account program style path (sited diagnostics path)

end Batch

/-- What a batch has to hold, over the paths of its recognized diagnostics. -/
structure Batch.Accounts (program : Program) (style : StubStyle) (diagnostics : List Diagnostic)
    (paths : List Path) (batch : Batch) : Prop where
  increasing : paths.Pairwise Path.Before
  path_iff : ∀ path, path ∈ paths ↔
    ∃ diagnostic ∈ diagnostics, diagnostic.isRecognized = true ∧ diagnostic.file.normalize = path
  edits : batch.edits = { files := paths.filterMap (fileEdit? program style diagnostics) }
  edits_increasing : (batch.edits.files.map FileEdit.path).Pairwise Path.Before
  edited_path_iff : ∀ path, path ∈ batch.edits.files.map FileEdit.path ↔
    ∃ key target edits,
      program.firstTarget? path key (sited diagnostics path) = some target ∧
      repairOne program.typeModel style target = .ok (some edits)
  class_iff : ∀ file ∈ batch.edits.files, ∀ edit, edit ∈ file.classes ↔
    ∃ target sole,
      program.firstTarget? file.path edit.key (sited diagnostics file.path) = some target ∧
      repairOne program.typeModel style target =
        .ok (some { files := [{ path := file.path, classes := [sole] }] }) ∧
      edit = sole.withTriggers
        (FileRepair.triggersOf program file.path (sited diagnostics file.path) edit.key)
  distinct : ∀ file ∈ batch.edits.files, (file.classes.map ClassEdit.key).Nodup
  failures : batch.failures = paths.flatMap (failuresAt program style diagnostics)
  every : ((diagnostics.filter Diagnostic.isRecognized).map Diagnostic.toRef).Perm
    (batch.edits.classes.flatMap ClassEdit.triggers ++
      (batch.failures.map (·.diagnostic.toRef) ++
        (paths.flatMap (silentAt program style diagnostics)).map Diagnostic.toRef))

/-- Every class once, and every recognized diagnostic once. -/
theorem repairAll_accounts (snapshot : Snapshot) (style : StubStyle)
    (diagnostics : List Diagnostic) :
    ∃ paths, Batch.Accounts (Program.ofSnapshot snapshot) style diagnostics paths
      (repairAll (Program.ofSnapshot snapshot) style diagnostics) := by
  refine ⟨Batch.paths diagnostics, {
    increasing := Batch.paths_increasing diagnostics
    path_iff := fun path => Batch.mem_paths_iff
    edits := by rw [Batch.repairAll_eq]
    edits_increasing :=
      (Batch.paths_increasing diagnostics).sublist (Batch.sublist_paths _ style diagnostics)
    edited_path_iff := fun path => Batch.mem_edited_paths_iff.trans Batch.classesAt_ne_nil_iff
    class_iff := fun file member edit => ?_
    distinct := fun file member => ?_
    failures := by rw [Batch.repairAll_eq]
    every := Batch.perm_account _ style diagnostics }⟩
  · rw [(Batch.mem_files_iff.mp member).2]
    exact Batch.mem_classesAt_iff
  · rw [(Batch.mem_files_iff.mp member).2]
    exact FileRepair.nodup_keys_classesOf ..

end MemberStubs
