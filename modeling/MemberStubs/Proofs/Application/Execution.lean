import Mathlib.Data.List.Pairwise
import MemberStubs.Application.Execution
import MemberStubs.Proofs.Application.Outcomes
import MemberStubs.Proofs.Store.Location
import MemberStubs.Proofs.Store.Yields

/-! Edits applied to a disk. Whatever is read is read before anything is written, every file is
written where its path leads, and nothing else on the disk changes. -/

namespace MemberStubs

def EditSet.edited (edits : EditSet) : List FileEdit :=
  edits.files.filter fun file => !file.classes.isEmpty

/-- No two files of the edits are one file of the disk. -/
def EditSet.LeadApart (edits : EditSet) (disk : Disk) (root : Path) : Prop :=
  edits.edited.Pairwise fun first second =>
    disk.locate? (first.fileIn root) ≠ disk.locate? (second.fileIn root)

instance (edits : EditSet) (disk : Disk) (root : Path) : Decidable (edits.LeadApart disk root) :=
  inferInstanceAs (Decidable (edits.edited.Pairwise fun first second : FileEdit =>
    disk.locate? (first.fileIn root) ≠ disk.locate? (second.fileIn root)))

/-! ## Reading -/

/-- An outcome is the one for the text of its file on a disk. -/
def FileEdit.Meets (disk : Disk) (root : Path) (options : ApplyOptions) (edit : FileEdit)
    (outcome : FileOutcome) : Prop :=
  ∃ contents, disk.text? (edit.fileIn root) = some contents ∧
    outcome = FileOutcome.of options edit contents

open Attempt

theorem FileEdit.yields_outcomeIn_iff {root : Path} {options : ApplyOptions} {edit : FileEdit}
    {disk next : Disk} {outcome : FileOutcome} :
    (edit.outcomeIn root options : Attempt (StateM Disk) _).Yields disk outcome next ↔
      edit.Meets disk root options outcome ∧ next = disk := by
  simp only [outcomeIn, yields_bind_iff, yields_during_iff, FileStore.yields_readText_iff,
    yields_pure_iff, Meets]
  constructor
  · rintro ⟨contents, _, ⟨read, rfl⟩, rfl, rfl⟩
    exact ⟨⟨contents, read, rfl⟩, rfl⟩
  · rintro ⟨⟨contents, read, rfl⟩, rfl⟩
    exact ⟨contents, _, ⟨read, rfl⟩, rfl, rfl⟩

theorem EditSet.yields_outcomes_iff {edits : EditSet} {root : Path} {options : ApplyOptions}
    {disk next : Disk} {outcomes : List FileOutcome} :
    (edits.outcomes root options : Attempt (StateM Disk) _).Yields disk outcomes next ↔
      List.Forall₂ (FileEdit.Meets disk root options) edits.edited outcomes ∧ next = disk :=
  yields_mapM_iff FileEdit.yields_outcomeIn_iff

theorem EditSet.yields_previewPatch_iff {edits : EditSet} {root : Path} {options : ApplyOptions}
    {disk next : Disk} {patch : String} :
    (edits.previewPatch root options : Attempt (StateM Disk) _).Yields disk patch next ↔
      ∃ outcomes, List.Forall₂ (FileEdit.Meets disk root options) edits.edited outcomes ∧
        patch = Outcomes.patch outcomes ∧ next = disk := by
  simp only [previewPatch, yields_bind_iff, yields_outcomes_iff, yields_pure_iff]
  constructor
  · rintro ⟨outcomes, _, ⟨meets, rfl⟩, rfl, rfl⟩
    exact ⟨outcomes, meets, rfl, rfl⟩
  · rintro ⟨outcomes, meets, rfl, rfl⟩
    exact ⟨outcomes, _, ⟨meets, rfl⟩, rfl, rfl⟩

theorem EditSet.yields_apply_iff {edits : EditSet} {root : Path} {tool : Tool}
    {options : ApplyOptions} {now : Timestamp} {disk final : Disk} {record : ApplyRecord}
    {patch : String} :
    (edits.apply root tool options now : Attempt (StateM Disk) _).Yields disk (record, patch)
        final ↔
      ∃ outcomes, List.Forall₂ (FileEdit.Meets disk root options) edits.edited outcomes ∧
        record = Outcomes.record options tool now outcomes ∧ patch = Outcomes.patch outcomes ∧
        if options.dryRun then final = disk
        else (forM (Outcomes.modified outcomes) (writeModified root) :
          Attempt (StateM Disk) _).Yields disk () final := by
  simp only [apply, yields_bind_iff, yields_outcomes_iff]
  cases options.dryRun with
  | true =>
      simp only [Bool.not_true, Bool.false_eq_true, if_false, if_true, yields_pure_iff,
        Prod.mk.injEq]
      constructor
      · rintro ⟨outcomes, _, ⟨meets, rfl⟩, ⟨rfl, rfl⟩, rfl⟩
        exact ⟨outcomes, meets, rfl, rfl, rfl⟩
      · rintro ⟨outcomes, meets, rfl, rfl, rfl⟩
        exact ⟨outcomes, _, ⟨meets, rfl⟩, ⟨rfl, rfl⟩, rfl⟩
  | false =>
      simp only [Bool.not_false, Bool.false_eq_true, if_false, if_true, yields_bind_iff,
        yields_pure_iff, Prod.mk.injEq]
      constructor
      · rintro ⟨outcomes, _, ⟨meets, rfl⟩, ⟨⟩, _, writes, ⟨rfl, rfl⟩, rfl⟩
        exact ⟨outcomes, meets, rfl, rfl, writes⟩
      · rintro ⟨outcomes, meets, rfl, rfl, writes⟩
        exact ⟨outcomes, _, ⟨meets, rfl⟩, (), _, writes, ⟨rfl, rfl⟩, rfl⟩

/-! ## Writing -/

/-- Files of a disk have new texts, each where its path leads, and all else is as before. -/
structure Disk.Rewritten (disk final : Disk) (root : Path) (files : List (Path × String)) :
    Prop where
  keeps : disk.Keeps final
  kept : final.Keeps disk
  written : ∀ file ∈ files, ∀ location, disk.locate? (root.join file.1) = some location →
    final.node? location = some (.file (Text.utf8Bytes file.2))
  untouched : ∀ location, (∀ file ∈ files, disk.locate? (root.join file.1) ≠ some location) →
    final.node? location = disk.node? location

theorem Disk.Rewritten.locate?_eq {disk final : Disk} {root : Path} {files : List (Path × String)}
    (rewritten : disk.Rewritten final root files) (path : Path) :
    final.locate? path = disk.locate? path :=
  Option.ext fun _ => ⟨rewritten.kept.locate?, rewritten.keeps.locate?⟩

theorem yields_writeModified_iff {root : Path} {file : Path × String} {disk next : Disk} :
    (EditSet.writeModified root file : Attempt (StateM Disk) _).Yields disk () next ↔
      disk.write? (root.join file.1) (Text.utf8Bytes file.2) = some next := by
  rw [EditSet.writeModified, yields_during_iff, FileStore.yields_writeText_iff]

/-- Files that are there and apart can all be written. -/
theorem Disk.exists_rewritten {disk : Disk} {root : Path} {files : List (Path × String)}
    (there : ∀ file ∈ files, ∃ location old, disk.locate? (root.join file.1) = some location ∧
      disk.node? location = some (.file old))
    (apart : files.Pairwise fun first second =>
      disk.locate? (root.join first.1) ≠ disk.locate? (root.join second.1)) :
    ∃ final, (forM files (EditSet.writeModified root) : Attempt (StateM Disk) _).Yields
        disk () final ∧ disk.Rewritten final root files := by
  induction files generalizing disk with
  | nil => exact ⟨disk, yields_forM_nil_iff.mpr rfl, .refl _, .refl _, by simp, fun _ _ => rfl⟩
  | cons file later induction =>
      rcases List.pairwise_cons.mp apart with ⟨other, laterApart⟩
      rcases there file (List.mem_cons_self ..) with ⟨location, old, leads, held⟩
      have notDirectory : disk.node? location ≠ some .directory := by simp [held]
      have below := ne_nil_of_not_directory notDirectory
      let written := disk.set location (.file (Text.utf8Bytes file.2))
      have keeps : disk.Keeps written := keeps_set_file notDirectory
      have kept : written.Keeps disk := set_file_keeps held
      have located : ∀ path, written.locate? path = disk.locate? path := fun path =>
        Option.ext fun _ => ⟨kept.locate?, keeps.locate?⟩
      have elsewhere : ∀ next ∈ later, ∀ location', disk.locate? (root.join next.1) =
          some location' → location' ≠ location := by
        rintro next member location' leads' rfl
        exact other next member (leads.trans leads'.symm)
      have laterThere : ∀ next ∈ later, ∃ location old,
          written.locate? (root.join next.1) = some location ∧
            written.node? location = some (.file old) := by
        intro next member
        rcases there next (List.mem_cons_of_mem _ member) with ⟨location', old', leads', held'⟩
        refine ⟨location', old', (located _).trans leads', ?_⟩
        rw [node?_set below, if_neg (elsewhere next member location' leads'), held']
      rcases induction laterThere (by simpa only [located] using laterApart) with
        ⟨final, yields, rewritten⟩
      refine ⟨final, yields_forM_cons_iff.mpr ⟨written, ?_, yields⟩,
        keeps.trans rewritten.keeps, rewritten.kept.trans kept, ?_, ?_⟩
      · rw [yields_writeModified_iff, write?_eq_some_iff]
        exact ⟨location, leads, notDirectory, rfl⟩
      · intro next member location' leads'
        rcases List.mem_cons.mp member with rfl | member
        · cases leads.symm.trans leads'
          rw [rewritten.untouched location fun other member' same =>
            elsewhere other member' location ((located _).symm.trans same) rfl,
            node?_set below, if_pos rfl]
        · exact rewritten.written next member location' ((located _).trans leads')
      · intro location' absent
        have away : location' ≠ location := by
          rintro rfl
          exact absent file (List.mem_cons_self ..) leads
        rw [rewritten.untouched location' fun next member =>
          (located _).symm ▸ absent next (List.mem_cons_of_mem _ member),
          node?_set below, if_neg away]

/-! ## Outcomes on a disk -/

section

variable {edits : EditSet} {root : Path} {options : ApplyOptions} {disk final : Disk}
  {outcomes : List FileOutcome}

theorem FileEdit.Meets.exists_location {edit : FileEdit} {outcome : FileOutcome}
    (meets : edit.Meets disk root options outcome) :
    outcome.edit = edit ∧ ∃ location, disk.locate? (edit.fileIn root) = some location ∧
      disk.node? location = some (.file (Text.utf8Bytes outcome.contents)) := by
  rcases meets with ⟨contents, read, rfl⟩
  exact ⟨rfl, Disk.bytes?_eq_some_iff.mp (Disk.text?_eq_some_iff.mp read)⟩

theorem EditSet.map_edit_of_meets
    (meets : List.Forall₂ (FileEdit.Meets disk root options) edits.edited outcomes) :
    outcomes.map FileOutcome.edit = edits.edited := by
  generalize edits.edited = files at meets
  induction meets with
  | nil => rfl
  | cons first _ induction => rw [List.map_cons, induction, first.exists_location.1]

theorem EditSet.exists_location_of_mem
    (meets : List.Forall₂ (FileEdit.Meets disk root options) edits.edited outcomes)
    {outcome : FileOutcome} (member : outcome ∈ outcomes) :
    ∃ location, disk.locate? (outcome.edit.fileIn root) = some location ∧
      disk.node? location = some (.file (Text.utf8Bytes outcome.contents)) := by
  rcases meets.flip.exists_of_mem member with ⟨edit, _, first⟩
  rcases FileEdit.Meets.exists_location first with ⟨rfl, there⟩
  exact there

theorem EditSet.LeadApart.pairwise_outcomes (apart : edits.LeadApart disk root)
    (meets : List.Forall₂ (FileEdit.Meets disk root options) edits.edited outcomes) :
    outcomes.Pairwise fun first second =>
      disk.locate? (first.edit.fileIn root) ≠ disk.locate? (second.edit.fileIn root) := by
  have listed := apart
  rw [EditSet.LeadApart, ← map_edit_of_meets meets, List.pairwise_map] at listed
  exact listed

/-- Files at different locations have different paths, however they are spelled. -/
theorem EditSet.LeadApart.apart (apart : edits.LeadApart disk root)
    (meets : List.Forall₂ (FileEdit.Meets disk root options) edits.edited outcomes) :
    Outcomes.Apart outcomes := by
  refine (apart.pairwise_outcomes meets).imp_of_mem fun {first second} held held' different => ?_
  rw [Path.sameComponents, decide_eq_false_iff_not]
  intro same
  rcases exists_location_of_mem meets held with ⟨location, leads, _⟩
  rcases exists_location_of_mem meets held' with ⟨location', leads', _⟩
  apply different
  rw [leads, leads', Disk.locate?_unique same leads leads']

theorem EditSet.exists_location_of_mem_modified (apart : edits.LeadApart disk root)
    (meets : List.Forall₂ (FileEdit.Meets disk root options) edits.edited outcomes)
    {file : Path × String} (member : file ∈ Outcomes.modified outcomes) :
    ∃ location old, disk.locate? (root.join file.1) = some location ∧
      disk.node? location = some (.file (Text.utf8Bytes old)) ∧ file.2 ≠ old := by
  rcases (Outcomes.mem_modified_iff (apart.apart meets)).mp member with
    ⟨outcome, held, different, rfl⟩
  rcases exists_location_of_mem meets held with ⟨location, leads, found⟩
  exact ⟨location, outcome.contents, leads, found, different⟩

theorem EditSet.LeadApart.pairwise_modified (apart : edits.LeadApart disk root)
    (meets : List.Forall₂ (FileEdit.Meets disk root options) edits.edited outcomes) :
    (Outcomes.modified outcomes).Pairwise fun first second =>
      disk.locate? (root.join first.1) ≠ disk.locate? (root.join second.1) := by
  have listed : (outcomes.filterMap FileOutcome.rewriting?).Pairwise fun first second =>
      disk.locate? (root.join first.1) ≠ disk.locate? (root.join second.1) := by
    rw [List.pairwise_filterMap]
    refine (apart.pairwise_outcomes meets).imp
      fun {first second} different file held file' held' => ?_
    rw [FileOutcome.rewriting?] at held held'
    split at held <;> cases held
    split at held' <;> cases held'
    exact different
  exact (Outcomes.perm_modified (apart.apart meets)).symm.pairwise listed
    fun different => different.symm

/-- The files to write are there and apart, so a real run succeeds once all files are read. -/
theorem EditSet.exists_rewritten (apart : edits.LeadApart disk root)
    (meets : List.Forall₂ (FileEdit.Meets disk root options) edits.edited outcomes) :
    ∃ final, (forM (Outcomes.modified outcomes) (writeModified root) :
        Attempt (StateM Disk) _).Yields disk () final ∧
      disk.Rewritten final root (Outcomes.modified outcomes) := by
  refine Disk.exists_rewritten (fun file member => ?_) (apart.pairwise_modified meets)
  rcases exists_location_of_mem_modified apart meets member with ⟨location, old, leads, held, _⟩
  exact ⟨location, _, leads, held⟩

theorem EditSet.rewritten_of_yields (apart : edits.LeadApart disk root)
    (meets : List.Forall₂ (FileEdit.Meets disk root options) edits.edited outcomes)
    (writes : (forM (Outcomes.modified outcomes) (writeModified root) :
      Attempt (StateM Disk) _).Yields disk () final) :
    disk.Rewritten final root (Outcomes.modified outcomes) := by
  rcases exists_rewritten apart meets with ⟨other, writes', rewritten⟩
  rw [(writes.unique writes').2]
  exact rewritten

theorem EditSet.exists_meets_iff :
    (∃ outcomes, List.Forall₂ (FileEdit.Meets disk root options) edits.edited outcomes) ↔
      ∀ edit ∈ edits.edited, ∃ contents, disk.text? (edit.fileIn root) = some contents := by
  induction edits.edited with
  | nil => simp
  | cons edit later induction =>
      rw [List.forall_mem_cons, ← induction]
      constructor
      · rintro ⟨_, meets⟩
        rcases List.forall₂_cons_left_iff.mp meets with ⟨_, rest, ⟨contents, read, _⟩, others, _⟩
        exact ⟨⟨contents, read⟩, rest, others⟩
      · rintro ⟨⟨contents, read⟩, rest, others⟩
        exact ⟨_, .cons ⟨contents, read, rfl⟩ others⟩

/-- An application returns if every file that it edits holds a text, and else it fails. -/
theorem EditSet.exists_yields_apply_iff {tool : Tool} {now : Timestamp}
    (apart : edits.LeadApart disk root) :
    (∃ outcome final, (edits.apply root tool options now : Attempt (StateM Disk) _).Yields disk
        outcome final) ↔
      ∀ edit ∈ edits.edited, ∃ contents, disk.text? (edit.fileIn root) = some contents := by
  rw [← @exists_meets_iff edits root options disk]
  constructor
  · rintro ⟨⟨record, patch⟩, final, returned⟩
    rcases yields_apply_iff.mp returned with ⟨outcomes, meets, _⟩
    exact ⟨outcomes, meets⟩
  · rintro ⟨outcomes, meets⟩
    rcases exists_rewritten apart meets with ⟨written, writes, _⟩
    refine ⟨(_, _), if options.dryRun then disk else written,
      yields_apply_iff.mpr ⟨outcomes, meets, rfl, rfl, ?_⟩⟩
    split
    · rfl
    · exact writes

/-- A run writes nothing but files that it edits. -/
theorem EditSet.node?_of_rewritten (apart : edits.LeadApart disk root)
    (meets : List.Forall₂ (FileEdit.Meets disk root options) edits.edited outcomes)
    (rewritten : disk.Rewritten final root (Outcomes.modified outcomes)) {location : Location}
    (away : ∀ edit ∈ edits.edited, disk.locate? (edit.fileIn root) ≠ some location) :
    final.node? location = disk.node? location := by
  apply rewritten.untouched
  intro file written leads
  rcases (Outcomes.mem_modified_iff (apart.apart meets)).mp written with ⟨outcome, held, _, rfl⟩
  rw [← map_edit_of_meets meets] at away
  exact away outcome.edit (List.mem_map_of_mem held) leads

/-- What a real run leaves: each file has the text of its outcome. -/
theorem EditSet.bytes?_of_rewritten (apart : edits.LeadApart disk root)
    (meets : List.Forall₂ (FileEdit.Meets disk root options) edits.edited outcomes)
    (rewritten : disk.Rewritten final root (Outcomes.modified outcomes))
    {outcome : FileOutcome} (member : outcome ∈ outcomes) :
    final.bytes? (outcome.edit.fileIn root) = some (Text.utf8Bytes outcome.textAfter) := by
  have away := apart.apart meets
  rcases exists_location_of_mem meets member with ⟨location, leads, held⟩
  refine Disk.bytes?_eq_some_iff.mpr ⟨location, rewritten.keeps.locate? leads, ?_⟩
  by_cases same : outcome.textAfter = outcome.contents
  · rw [same, ← held]
    apply rewritten.untouched
    intro file written leads'
    rcases (Outcomes.mem_modified_iff away).mp written with ⟨other, held', different, rfl⟩
    have differ : other ≠ outcome := by
      rintro rfl
      exact different same
    have symmetric : Std.Symm fun first second : FileOutcome =>
        disk.locate? (first.edit.fileIn root) ≠ disk.locate? (second.edit.fileIn root) :=
      ⟨fun _ _ unequal => unequal.symm⟩
    exact (apart.pairwise_outcomes meets).forall held' member differ (leads'.trans leads.symm)
  · exact rewritten.written _ ((Outcomes.mem_modified_iff away).mpr ⟨outcome, member, same, rfl⟩)
      location leads

end

end MemberStubs
