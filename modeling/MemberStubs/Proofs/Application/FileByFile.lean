import MemberStubs.Proofs.Application.Truth
import MemberStubs.Proofs.Store.Fails

/-! Files of one application. A file that cannot be read stops all of them before anything is
written. What stops the edits of one file otherwise stops no other file: each one has the result and
the contents that it has when it is the only one. -/

namespace MemberStubs

open Attempt

def EditSet.only (edits : EditSet) (edit : FileEdit) : EditSet :=
  { edits with files := [edit] }

/-- What an application of the edits of one file alone says of the file and leaves in it is the given
result, and what another application leaves. -/
def FileEdit.ComesOutAlone (edits : EditSet) (root : Path) (tool : Tool) (options : ApplyOptions)
    (now : Timestamp) (disk final : Disk) (edit : FileEdit) (result : FileResult) : Prop :=
  ∃ record patch left,
    ((edits.only edit).apply root tool options now : Attempt (StateM Disk) _).Yields disk
      (record, patch) left ∧
    record.results = [result] ∧ left.bytes? (edit.fileIn root) = final.bytes? (edit.fileIn root)

section

variable {edits : EditSet} {root : Path} {tool : Tool} {options : ApplyOptions} {now : Timestamp}
  {disk final : Disk}

/-! ## Files that cannot be read -/

def FileEdit.readFailure (root : Path) (edit : FileEdit) : Failure :=
  { context := [s!"read {edit.fileIn root}"], cause := .cannotRead (edit.fileIn root) }

theorem FileEdit.fails_outcomeIn_iff {edit : FileEdit} {failure : Failure} {next : Disk} :
    (edit.outcomeIn root options : Attempt (StateM Disk) _).Fails disk failure next ↔
      (∀ outcome, ¬ edit.Meets disk root options outcome) ∧
        failure = edit.readFailure root ∧ next = disk := by
  have unread : (∀ outcome, ¬ edit.Meets disk root options outcome) ↔
      disk.text? (edit.fileIn root) = none := by
    cases read : disk.text? (edit.fileIn root) <;> simp [Meets, read]
  rw [unread]
  simp only [outcomeIn, fails_bind_iff, fails_during_iff, FileStore.fails_readText_iff,
    not_fails_pure, and_false, exists_false, or_false]
  constructor
  · rintro ⟨_, ⟨missing, rfl, rfl⟩, rfl⟩
    exact ⟨missing, rfl, rfl⟩
  · rintro ⟨missing, rfl, rfl⟩
    exact ⟨_, ⟨missing, rfl, rfl⟩, rfl⟩

/-- The first file that cannot be read is what the failure tells of. -/
theorem EditSet.exists_fails_apply (unread : ∃ edit ∈ edits.edited,
      disk.text? (edit.fileIn root) = none) :
    ∃ edit ∈ edits.edited, disk.text? (edit.fileIn root) = none ∧
      (edits.apply root tool options now : Attempt (StateM Disk) _).Fails disk
        (edit.readFailure root) disk := by
  have found : (edits.edited.find? fun edit => disk.text? (edit.fileIn root) = none).isSome := by
    simpa using unread
  rcases Option.isSome_iff_exists.mp found with ⟨edit, first⟩
  rcases List.find?_eq_some_iff_append.mp first with ⟨missing, earlier, later, split, before⟩
  have missing : disk.text? (edit.fileIn root) = none := by simpa using missing
  refine ⟨edit, List.mem_of_find?_eq_some first, missing, fails_bind_iff.mpr (.inl ?_)⟩
  refine (fails_mapM_iff FileEdit.yields_outcomeIn_iff FileEdit.fails_outcomeIn_iff).mpr
    ⟨earlier, edit, later, split, fun other member => ?_, ?_, rfl, rfl⟩
  · rcases Option.ne_none_iff_exists'.mp (by simpa using before other member) with
      ⟨contents, read⟩
    exact ⟨_, contents, read, rfl⟩
  · rintro outcome ⟨contents, read, _⟩
    cases missing.symm.trans read

/-! ## Files that can -/

theorem EditSet.edited_only {edit : FileEdit} (member : edit ∈ edits.edited) :
    (edits.only edit).edited = [edit] :=
  List.filter_eq_self.mpr fun _ same =>
    List.mem_singleton.mp same ▸ (List.mem_filter.mp member).2

theorem EditSet.leadApart_only {edit : FileEdit} (member : edit ∈ edits.edited) :
    (edits.only edit).LeadApart disk root := by
  rw [LeadApart, edited_only member]
  exact List.pairwise_singleton ..

/-- What a run leaves in a file goes by the outcome for the file. -/
theorem EditSet.exists_yields_apply (tool : Tool) (now : Timestamp)
    (apart : edits.LeadApart disk root)
    {outcomes : List FileOutcome}
    (meets : List.Forall₂ (FileEdit.Meets disk root options) edits.edited outcomes) :
    ∃ final, (edits.apply root tool options now : Attempt (StateM Disk) _).Yields disk
        (Outcomes.record options tool now outcomes, Outcomes.patch outcomes) final ∧
      ∀ outcome ∈ outcomes, final.bytes? (outcome.edit.fileIn root) = some (Text.utf8Bytes
        (if options.dryRun then outcome.contents else outcome.textAfter)) := by
  cases dry : options.dryRun with
  | true =>
      refine ⟨disk, yields_apply_iff.mpr ⟨outcomes, meets, rfl, rfl, by rw [if_pos dry]⟩, ?_⟩
      exact fun outcome member => Disk.bytes?_eq_some_iff.mpr (exists_location_of_mem meets member)
  | false =>
      rcases exists_rewritten apart meets with ⟨final, writes, rewritten⟩
      refine ⟨final, yields_apply_iff.mpr ⟨outcomes, meets, rfl, rfl, ?_⟩, ?_⟩
      · rwa [if_neg (by simp [dry])]
      · exact fun outcome member => bytes?_of_rewritten apart meets rewritten member

theorem FileEdit.comesOutAlone {edit : FileEdit} {outcome : FileOutcome}
    (member : edit ∈ edits.edited) (meets : edit.Meets disk root options outcome)
    (left : final.bytes? (edit.fileIn root) = some (Text.utf8Bytes
      (if options.dryRun then outcome.contents else outcome.textAfter))) :
    edit.ComesOutAlone edits root tool options now disk final (outcome.result options.dryRun) := by
  have alone : List.Forall₂ (FileEdit.Meets disk root options) (edits.only edit).edited
      [outcome] := by
    rw [EditSet.edited_only member]
    exact .cons meets .nil
  rcases EditSet.exists_yields_apply tool now (EditSet.leadApart_only member) alone with
    ⟨left', returned, bytes⟩
  refine ⟨_, _, left', returned, rfl, ?_⟩
  rw [left, ← meets.exists_location.1]
  exact bytes outcome (List.mem_singleton_self _)

end

/-- An application with a file that cannot be read fails and leaves the disk as it was. Any other one
returns, and every file comes out as it does alone. -/
theorem EditSet.apply_fileByFile (edits : EditSet) (root : Path) (tool : Tool)
    (options : ApplyOptions) (now : Timestamp) (disk : Disk) :
    ((∃ edit ∈ edits.edited, disk.text? (edit.fileIn root) = none) →
      ∃ edit ∈ edits.edited, disk.text? (edit.fileIn root) = none ∧
        (edits.apply root tool options now : Attempt (StateM Disk) _).Fails disk
          (edit.readFailure root) disk) ∧
    ((∀ edit ∈ edits.edited, disk.text? (edit.fileIn root) ≠ none) →
      edits.LeadApart disk root →
        ∃ record patch final,
          (edits.apply root tool options now : Attempt (StateM Disk) _).Yields disk
            (record, patch) final ∧
          List.Forall₂ (FileEdit.ComesOutAlone edits root tool options now disk final)
            edits.edited record.results) := by
  refine ⟨exists_fails_apply, fun readable apart => ?_⟩
  rcases exists_meets_iff.mpr fun edit member =>
    Option.ne_none_iff_exists'.mp (readable edit member) with ⟨outcomes, meets⟩
  rcases exists_yields_apply tool now apart meets with ⟨final, returned, bytes⟩
  refine ⟨_, _, final, returned, ?_⟩
  show List.Forall₂ _ _ (outcomes.map fun outcome => outcome.result options.dryRun)
  rw [List.forall₂_map_right_iff]
  refine List.forall₂_iff_zip.mpr ⟨meets.length_eq, fun {edit outcome} pair => ?_⟩
  have first := List.forall₂_zip meets pair
  have held := List.of_mem_zip pair
  exact FileEdit.comesOutAlone held.1 first (first.exists_location.1 ▸ bytes outcome held.2)

/-! The workshop again, once with a third file that is not there. -/

def EditSet.shortWorkshop : EditSet :=
  { EditSet.workshop with
    files := EditSet.workshop.files ++
      [ { path := ⟨"lost.ts"⟩
          classes :=
            [ { id := "lost", key := ⟨⟨"lost.ts"⟩, 0⟩, name := none, anchor := ⟨12⟩
                stubs := [⟨"text", .method, "text(): string"⟩] } ] } ] }

theorem EditSet.apply_fileByFile_workshop :
    (∃ edit ∈ EditSet.shortWorkshop.edited,
      (EditSet.shortWorkshop.apply ⟨"."⟩ ⟨"absfix", "1.0"⟩ { dryRun := false } default :
        Attempt (StateM Disk) _).Fails Disk.workshop (edit.readFailure ⟨"."⟩) Disk.workshop) ∧
    EditSet.workshop.LeadApart Disk.workshop ⟨"."⟩ ∧
      ∃ record patch final,
        (EditSet.workshop.apply ⟨"."⟩ ⟨"absfix", "1.0"⟩ { dryRun := false } default :
          Attempt (StateM Disk) _).Yields Disk.workshop (record, patch) final ∧
        List.Forall₂ (FileEdit.ComesOutAlone EditSet.workshop ⟨"."⟩ ⟨"absfix", "1.0"⟩
          { dryRun := false } default Disk.workshop final) EditSet.workshop.edited record.results := by
  have apart : EditSet.workshop.LeadApart Disk.workshop ⟨"."⟩ := by decide +kernel
  have unread : ∃ edit ∈ EditSet.shortWorkshop.edited,
      Disk.workshop.text? (edit.fileIn ⟨"."⟩) = none := by
    decide +kernel
  have readable : ∀ edit ∈ EditSet.workshop.edited,
      Disk.workshop.text? (edit.fileIn ⟨"."⟩) ≠ none := by
    decide +kernel
  rcases (apply_fileByFile EditSet.shortWorkshop ⟨"."⟩ ⟨"absfix", "1.0"⟩ { dryRun := false } default
    Disk.workshop).1 unread with ⟨edit, member, _, fails⟩
  exact ⟨⟨edit, member, fails⟩, apart, (apply_fileByFile EditSet.workshop ⟨"."⟩ ⟨"absfix", "1.0"⟩
    { dryRun := false } default Disk.workshop).2 readable apart⟩

end MemberStubs
