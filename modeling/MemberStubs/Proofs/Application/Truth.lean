import MemberStubs.Proofs.Application.Execution

/-! What the record of an application says of the disk. A real run leaves the text of every applied
file where the path of the file leads, leaves all else alone, and records for each file what was
there before and after. -/

namespace MemberStubs

/-- What a result says of the contents of its file and of the bytes that follow them. -/
structure FileResult.Tells (options : ApplyOptions) (edit : FileEdit) (contents : String)
    (after : List UInt8) (result : FileResult) : Prop where
  path : result.path = edit.path.text
  classes : result.classes = .ofNat edit.classes.length
  sha256Before : result.sha256Before = some (Digest.sha256 (Text.utf8Bytes contents))
  applied_iff : result.status = .applied ↔
    edit.PassesHash options (Text.utf8Bytes contents) ∧
      ∃ text, edit.render contents (options.layout contents) = .ok text
  applied : ∀ text, result.status = .applied →
    edit.render contents (options.layout contents) = .ok text →
      after = Text.utf8Bytes text ∧ result.sha256After = some (Digest.sha256 after) ∧
        result.stubsInserted = .ofNat edit.stubCount
  blocked : result.status ≠ .applied →
    result.status = .blocked ∧ after = Text.utf8Bytes contents ∧ result.sha256After = none ∧
      result.stubsInserted = 0

/-- What a record says of a disk and of the one that a real run leaves. -/
structure ApplyRecord.Tells (edits : EditSet) (root : Path) (options : ApplyOptions)
    (disk final : Disk) (record : ApplyRecord) : Prop where
  results : List.Forall₂ (fun edit result => ∃ contents after,
      disk.bytes? (edit.fileIn root) = some (Text.utf8Bytes contents) ∧
        final.bytes? (edit.fileIn root) = some after ∧ result.Tells options edit contents after)
    edits.edited record.results
  ways : ∀ path, final.locate? path = disk.locate? path
  elsewhere : ∀ location,
    (∀ edit ∈ edits.edited, disk.locate? (edit.fileIn root) ≠ some location) →
      final.node? location = disk.node? location
  filesModified : ∃ changed : List Location, changed.Nodup ∧
    (∀ location, location ∈ changed ↔ final.node? location ≠ disk.node? location) ∧
      record.summary.filesModified = .ofNat changed.length
  applied : record.summary.applied =
    .ofNat (record.results.countP fun result => result.status = .applied)
  blocked : record.summary.blocked =
    .ofNat (record.results.countP fun result => result.status = .blocked)

/-! ## One file -/

theorem FileOutcome.result_tells (options : ApplyOptions) (edit : FileEdit) (contents : String) :
    ((of options edit contents).result false).Tells options edit contents
      (Text.utf8Bytes (of options edit contents).textAfter) := by
  rcases (of options edit contents).result_cases false with
    ⟨text, rendered, status, stubs, digest⟩ | ⟨other, status, _, stubs, digest⟩
  · rcases of_eq_rendered_iff.mp rendered with ⟨passes, renders⟩
    rw [textAfter_of_rendered rendered]
    refine ⟨path_result .., classes_result .., sha256Before_result ..,
      iff_of_true status ⟨passes, text, renders⟩, ?_, fun other => absurd status other⟩
    intro text' _ renders'
    cases renders.symm.trans renders'
    exact ⟨rfl, digest, stubs⟩
  · have notApplied : ((of options edit contents).result false).status ≠ .applied := by
      rw [status]
      decide
    rw [textAfter_of_not_rendered other]
    refine ⟨path_result .., classes_result .., sha256Before_result ..,
      iff_of_false notApplied ?_, fun _ applied => absurd applied notApplied,
      fun _ => ⟨status, rfl, digest, stubs⟩⟩
    rintro ⟨passes, text, renders⟩
    exact other text (of_eq_rendered_iff.mpr ⟨passes, renders⟩)

/-! ## All files -/

section

variable {edits : EditSet} {root : Path} {options : ApplyOptions} {disk final : Disk}
  {outcomes : List FileOutcome}

theorem EditSet.results_tell (real : options.dryRun = false) (apart : edits.LeadApart disk root)
    (meets : List.Forall₂ (FileEdit.Meets disk root options) edits.edited outcomes)
    (rewritten : disk.Rewritten final root (Outcomes.modified outcomes)) :
    List.Forall₂ (fun edit result => ∃ contents after,
        disk.bytes? (edit.fileIn root) = some (Text.utf8Bytes contents) ∧
          final.bytes? (edit.fileIn root) = some after ∧
            result.Tells options edit contents after)
      edits.edited (outcomes.map fun outcome => outcome.result options.dryRun) := by
  rw [List.forall₂_map_right_iff, real]
  have bytes := fun outcome (member : outcome ∈ outcomes) =>
    bytes?_of_rewritten apart meets rewritten member
  clear rewritten apart
  generalize edits.edited = files at meets
  induction meets with
  | nil => exact .nil
  | @cons edit outcome _ _ first later induction =>
      refine .cons ?_ (induction fun outcome member => bytes outcome (.tail _ member))
      have left := bytes outcome (.head _)
      rcases first with ⟨contents, read, rfl⟩
      exact ⟨contents, _, Disk.text?_eq_some_iff.mp read, left,
        FileOutcome.result_tells options edit contents⟩

/-- The locations that a real run changes are those of the files it writes. -/
theorem EditSet.exists_changed (apart : edits.LeadApart disk root)
    (meets : List.Forall₂ (FileEdit.Meets disk root options) edits.edited outcomes)
    (rewritten : disk.Rewritten final root (Outcomes.modified outcomes)) :
    ∃ changed : List Location, changed.Nodup ∧
      (∀ location, location ∈ changed ↔ final.node? location ≠ disk.node? location) ∧
        changed.length = (Outcomes.modified outcomes).length := by
  have there := fun file (member : file ∈ Outcomes.modified outcomes) =>
    exists_location_of_mem_modified apart meets member
  refine ⟨(Outcomes.modified outcomes).filterMap fun file => disk.locate? (root.join file.1),
    ?_, fun location => ⟨fun member => ?_, fun changed => ?_⟩, ?_⟩
  · rw [List.Nodup, List.pairwise_filterMap]
    refine (apart.pairwise_modified meets).imp
      fun {first second} different location leads location' leads' same => ?_
    exact different (leads.trans (same ▸ leads'.symm))
  · rcases List.mem_filterMap.mp member with ⟨file, written, leads⟩
    rcases there file written with ⟨location', old, leads', held, different⟩
    cases leads.symm.trans leads'
    rw [rewritten.written file written location leads, held]
    intro same
    simp only [Option.some.injEq, DiskNode.file.injEq] at same
    exact different (Text.utf8Bytes_inj.mp same)
  · by_contra absent
    refine changed (rewritten.untouched location fun file written leads => absent ?_)
    exact List.mem_filterMap.mpr ⟨file, written, leads⟩
  · apply List.filterMap_length_eq_length.mpr
    intro file written
    rcases there file written with ⟨location, _, leads, _⟩
    rw [leads]
    rfl

theorem FileOutcome.status_result_true (outcome : FileOutcome) :
    (outcome.result true).status ≠ .applied := by
  rcases outcome.result_cases true with ⟨_, _, status, _⟩ | ⟨_, status, _⟩ <;>
    · rw [status]
      decide

end

/-- An application returns if each file that it edits is a text. Its record then tells of a policy
block if a file is blocked, and what a real run leaves is as the record has it. A dry run leaves the
disk as it is. -/
theorem EditSet.apply_tells (edits : EditSet) (root : Path) (tool : Tool) (options : ApplyOptions)
    (now : Timestamp) {disk : Disk} (apart : edits.LeadApart disk root) :
    ((∃ outcome final, (edits.apply root tool options now : Attempt (StateM Disk) _).Yields disk
        outcome final) ↔
      ∀ edit ∈ edits.edited, ∃ contents, disk.text? (edit.fileIn root) = some contents) ∧
    ∀ record patch final,
      (edits.apply root tool options now : Attempt (StateM Disk) _).Yields disk (record, patch)
          final →
        (record.policyBlock? = none ↔ ∀ result ∈ record.results, result.status ≠ .blocked) ∧
        (options.dryRun = false → record.Tells edits root options disk final) ∧
        (options.dryRun = true → final = disk ∧ record.summary.filesModified = 0 ∧
          ∀ result ∈ record.results, result.status ≠ .applied) := by
  refine ⟨exists_yields_apply_iff apart, fun record patch final returned => ?_⟩
  rcases yields_apply_iff.mp returned with ⟨outcomes, meets, rfl, rfl, left⟩
  refine ⟨Outcomes.policyBlock?_record .., fun real => ?_, fun dry => ?_⟩
  · rw [if_neg (by simp [real])] at left
    have rewritten := rewritten_of_yields apart meets left
    refine ⟨results_tell real apart meets rewritten, rewritten.locate?_eq,
      fun _ => node?_of_rewritten apart meets rewritten, ?_, rfl, rfl⟩
    rcases exists_changed apart meets rewritten with ⟨changed, distinct, changes, length⟩
    refine ⟨changed, distinct, changes, ?_⟩
    show (if options.dryRun then (0 : UInt64) else _) = _
    rw [if_neg (by simp [real]), length]
  · rw [if_pos dry] at left
    refine ⟨left, if_pos dry, ?_⟩
    show ∀ result ∈ outcomes.map fun outcome => outcome.result options.dryRun, _
    rw [dry, List.forall_mem_map]
    exact fun outcome _ => outcome.status_result_true

/-! A directory with two files, and edits for both. The second file has another digest than the one
that its edit was computed for. -/

def Disk.workshop : Disk :=
  { nodes :=
      [ (["work"], .directory),
        (["work", "shapes.ts"], .file (Text.utf8Bytes "class Circle \x7b\n\x7d\n")),
        (["work", "notes.ts"], .file (Text.utf8Bytes "class Note \x7b\n\x7d\n")) ]
    current := ["work"] }

def EditSet.workshop : EditSet :=
  { files :=
      [ { path := ⟨"./shapes.ts"⟩
          classes :=
            [ { id := "circle", key := ⟨⟨"shapes.ts"⟩, 0⟩, name := some "Circle", anchor := ⟨14⟩
                stubs := [⟨"area", .method, "area(): number"⟩] } ] },
        { path := ⟨"notes.ts"⟩
          sha256 := some "0"
          classes :=
            [ { id := "note", key := ⟨⟨"notes.ts"⟩, 0⟩, name := some "Note", anchor := ⟨12⟩
                stubs := [⟨"text", .method, "text(): string"⟩] } ] } ] }

theorem EditSet.apply_tells_workshop :
    EditSet.workshop.LeadApart Disk.workshop ⟨"."⟩ ∧
      ∃ record patch final,
        (EditSet.workshop.apply ⟨"."⟩ ⟨"absfix", "1.0"⟩ { dryRun := false } default :
          Attempt (StateM Disk) _).Yields Disk.workshop (record, patch) final ∧
        record.Tells EditSet.workshop ⟨"."⟩ { dryRun := false } Disk.workshop final ∧
        record.results.map FileResult.status = [.applied, .blocked] ∧
        final.text? ⟨"shapes.ts"⟩ = some "class Circle \x7b\n    area(): number\n\x7d\n" := by
  have apart : EditSet.workshop.LeadApart Disk.workshop ⟨"."⟩ := by decide +kernel
  have told :=
    apply_tells EditSet.workshop ⟨"."⟩ ⟨"absfix", "1.0"⟩ { dryRun := false } default apart
  have readable : ∀ edit ∈ EditSet.workshop.edited,
      (Disk.workshop.text? (edit.fileIn ⟨"."⟩)).isSome = true := by
    decide +kernel
  rcases told.1.mpr fun edit member => Option.isSome_iff_exists.mp (readable edit member) with
    ⟨⟨record, patch⟩, final, returned⟩
  refine ⟨apart, record, patch, final, returned, (told.2 record patch final returned).2.1 rfl,
    ?_, ?_⟩
  · have statuses : (((EditSet.workshop.apply ⟨"."⟩ ⟨"absfix", "1.0"⟩ { dryRun := false } default :
        Attempt (StateM Disk) _).on Disk.workshop).1.map fun outcome =>
          outcome.1.results.map FileResult.status) = .ok [.applied, .blocked] := by
      decide +kernel
    rw [returned] at statuses
    exact Except.ok.inj statuses
  · have text : ((EditSet.workshop.apply ⟨"."⟩ ⟨"absfix", "1.0"⟩ { dryRun := false } default :
        Attempt (StateM Disk) _).on Disk.workshop).2.text? ⟨"shapes.ts"⟩ =
          some "class Circle \x7b\n    area(): number\n\x7d\n" := by
      decide +kernel
    rw [returned] at text
    exact text

end MemberStubs
