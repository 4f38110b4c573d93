import MemberStubs.Proofs.Application.Execution

/-! Edits applied once more to the disk that they left. A file that was changed has no longer the
digest that its edit recorded, so the hash check stops it; any other file is as it was, and comes
out as before. So nothing is left to write. -/

namespace MemberStubs

namespace FileOutcome

/-- An outcome for a file that an earlier run has seen: the file is as it was and has the same
outcome, or it was changed and is stopped. -/
def Repeats (before after : FileOutcome) : Prop :=
  (before.textAfter = before.contents ∧ after = before) ∨
    (before.textAfter ≠ before.contents ∧ after.edit = before.edit ∧
      after.contents = before.textAfter ∧ after.change = .changed)

theorem repeats_of {options : ApplyOptions} {edit : FileEdit} {contents : String}
    (clean : options.requireCleanHashes = true) (hashed : edit.sha256.isSome = true)
    (distinct : (of options edit contents).textAfter ≠ contents →
      Digest.sha256 (Text.utf8Bytes contents) ≠
        Digest.sha256 (Text.utf8Bytes (of options edit contents).textAfter)) :
    (of options edit contents).Repeats
      (of options edit (of options edit contents).textAfter) := by
  by_cases same : (of options edit contents).textAfter = contents
  · exact Or.inl ⟨same, by rw [same]⟩
  · refine Or.inr ⟨same, rfl, rfl, of_eq_changed_iff.mpr fun passesAfter => distinct same ?_⟩
    rcases Option.isSome_iff_exists.mp hashed with ⟨expected, recorded⟩
    have passes : edit.PassesHash options (Text.utf8Bytes contents) := by
      by_contra stopped
      apply same
      apply textAfter_of_not_rendered
      intro text rendered
      exact stopped (of_eq_rendered_iff.mp rendered).1
    exact (passes clean expected recorded).symm.trans (passesAfter clean expected recorded)

/-- What the hash check has against a file that it stops. -/
theorem hashMismatch?_of_changed {options : ApplyOptions} {edit : FileEdit} {contents : String}
    (changed : (of options edit contents).change = .changed) :
    ∃ expected, edit.sha256 = some expected ∧ hashMismatch? edit contents =
      some ⟨edit.path.text, expected, Digest.sha256 (Text.utf8Bytes contents)⟩ := by
  have stopped := of_eq_changed_iff.mp changed
  simp only [FileEdit.PassesHash, not_forall] at stopped
  rcases stopped with ⟨_, expected, recorded, different⟩
  exact ⟨expected, recorded, hashMismatch?_eq_some_iff.mpr ⟨expected, recorded, different, rfl⟩⟩

namespace Repeats

variable {before after : FileOutcome}

theorem textAfter_eq (repeats : before.Repeats after) : after.textAfter = after.contents := by
  rcases repeats with ⟨same, rfl⟩ | ⟨_, _, _, changed⟩
  · exact same
  · exact textAfter_of_not_rendered (by simp [changed])

theorem blocked (repeats : before.Repeats after)
    (blocked : (before.result false).status = .blocked) :
    (after.result false).status = .blocked := by
  rcases repeats with ⟨_, rfl⟩ | ⟨_, _, _, changed⟩
  · exact blocked
  · exact (after.status_result_eq_blocked_iff false).mpr (by simp [changed])

end Repeats

end FileOutcome

/-- A result says that its file is stopped, for the digest of the bytes that it has now. -/
structure FileResult.Stopped (edit : FileEdit) (bytes : List UInt8) (mismatches : List HashMismatch)
    (result : FileResult) : Prop where
  path : result.path = edit.path.text
  status : result.status = .blocked
  mismatch : ∃ expected, edit.sha256 = some expected ∧
    ⟨edit.path.text, expected, Digest.sha256 bytes⟩ ∈ mismatches

section

variable {edits : EditSet} {root : Path} {options : ApplyOptions} {disk final : Disk}
  {outcomes : List FileOutcome}

theorem Disk.Rewritten.leadApart {files : List (Path × String)}
    (rewritten : disk.Rewritten final root files) (apart : edits.LeadApart disk root) :
    edits.LeadApart final root := by
  rw [EditSet.LeadApart] at apart ⊢
  simpa only [rewritten.locate?_eq] using apart

theorem EditSet.exists_repeats (clean : options.requireCleanHashes = true)
    (hashed : ∀ edit ∈ edits.edited, edit.sha256.isSome = true)
    (apart : edits.LeadApart disk root)
    (meets : List.Forall₂ (FileEdit.Meets disk root options) edits.edited outcomes)
    (rewritten : disk.Rewritten final root (Outcomes.modified outcomes))
    (distinct : ∀ edit ∈ edits.edited, ∀ before after,
      disk.bytes? (edit.fileIn root) = some before → final.bytes? (edit.fileIn root) = some after →
        before ≠ after → Digest.sha256 before ≠ Digest.sha256 after) :
    ∃ again,
      List.Forall₂ (fun edit after => edit.Meets final root options after ∧
        (final.bytes? (edit.fileIn root) ≠ disk.bytes? (edit.fileIn root) →
          after.change = .changed)) edits.edited again ∧
      List.Forall₂ FileOutcome.Repeats outcomes again := by
  have left := fun outcome (member : outcome ∈ outcomes) =>
    bytes?_of_rewritten apart meets rewritten member
  clear apart rewritten
  generalize edits.edited = files at meets hashed distinct
  induction meets with
  | nil => exact ⟨[], .nil, .nil⟩
  | @cons edit outcome _ _ first later induction =>
      rcases induction (fun outcome member => left outcome (.tail _ member))
        (fun edit member => hashed edit (.tail _ member))
        (fun edit member => distinct edit (.tail _ member)) with ⟨again, meets, repeats⟩
      rcases first with ⟨contents, read, rfl⟩
      have held := Disk.text?_eq_some_iff.mp read
      have written : final.bytes? (edit.fileIn root) =
          some (Text.utf8Bytes (FileOutcome.of options edit contents).textAfter) :=
        left (FileOutcome.of options edit contents) (.head _)
      have once := FileOutcome.repeats_of clean (hashed edit (.head _)) fun different =>
        distinct edit (.head _) _ _ held written fun same =>
          different (Text.utf8Bytes_inj.mp same).symm
      refine ⟨FileOutcome.of options edit (FileOutcome.of options edit contents).textAfter :: again,
        .cons ⟨⟨_, Disk.text?_eq_some_iff.mpr written, rfl⟩, fun differs => ?_⟩ meets,
        .cons once repeats⟩
      rcases once with ⟨same, _⟩ | ⟨_, _, _, changed⟩
      · exact absurd (by rw [written, held, same]; rfl) differs
      · exact changed

theorem EditSet.results_stopped (dryRun : Bool)
    (meets : List.Forall₂ (fun edit after => edit.Meets final root options after ∧
        (final.bytes? (edit.fileIn root) ≠ disk.bytes? (edit.fileIn root) →
          after.change = .changed)) edits.edited outcomes) :
    List.Forall₂ (fun edit result =>
        final.bytes? (edit.fileIn root) ≠ disk.bytes? (edit.fileIn root) →
          ∃ bytes, final.bytes? (edit.fileIn root) = some bytes ∧
            result.Stopped edit bytes (Outcomes.preconditions outcomes).mismatches)
      edits.edited (outcomes.map fun outcome => outcome.result dryRun) := by
  rw [List.forall₂_map_right_iff]
  refine List.forall₂_iff_zip.mpr ⟨meets.length_eq, fun {edit outcome} pair differs => ?_⟩
  rcases List.forall₂_zip meets pair with ⟨⟨contents, read, rfl⟩, stops⟩
  have changed := stops differs
  rcases FileOutcome.hashMismatch?_of_changed changed with ⟨expected, recorded, mismatch⟩
  exact ⟨_, Disk.text?_eq_some_iff.mp read, FileOutcome.path_result ..,
    (FileOutcome.status_result_eq_blocked_iff _ _).mpr (by simp [changed]), expected, recorded,
    List.mem_filterMap.mpr ⟨_, (List.of_mem_zip pair).2, mismatch⟩⟩

theorem Outcomes.modified_of_repeats {again : List FileOutcome} (apart : Apart again)
    (repeats : List.Forall₂ FileOutcome.Repeats outcomes again) : modified again = [] := by
  rw [List.eq_nil_iff_forall_not_mem]
  intro file member
  rcases (mem_modified_iff apart).mp member with ⟨after, held, different, _⟩
  apply different
  clear apart member
  induction repeats with
  | nil => cases held
  | cons first _ induction =>
      rcases List.mem_cons.mp held with rfl | held
      · exact first.textAfter_eq
      · exact induction held

end

end MemberStubs
