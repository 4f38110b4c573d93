import Mathlib.Data.List.Forall2
import MemberStubs.Proofs.Diff.Compaction
import MemberStubs.Proofs.Diff.Printing
import MemberStubs.Proofs.PathMap

/-! What a patch makes of the old texts. Each hunk is there, in its place and with all its lines, and
applied to the old text the hunks give the new one, unless a line that they show ends with a carriage
return. -/

namespace MemberStubs.Diff

open Text

/-! ## Lines of hunks -/

theorem Script.mem_old_or_new {script : Script α} {run : Run α} {value : α}
    (inScript : run ∈ script) (inRun : value ∈ run.values) :
    value ∈ script.old ∨ value ∈ script.new := by
  by_cases added : run.kind = .added
  · refine .inr (List.mem_flatMap.mpr ⟨run, List.mem_filter.mpr ⟨inScript, ?_⟩, inRun⟩)
    rw [added]
    decide
  · exact .inl (List.mem_flatMap.mpr ⟨run, List.mem_filter.mpr ⟨inScript, by simpa⟩, inRun⟩)

/-- What hunks show stands in one of the two lists. -/
theorem mem_of_applyFrom? [DecidableEq α] {hunks : List (Hunk α)} {oldAt newAt : Nat}
    {rest result : List α} (applied : applyFrom? oldAt newAt rest hunks = some result)
    {hunk : Hunk α} (held : hunk ∈ hunks) {run : Run α} (inBody : run ∈ hunk.body) {value : α}
    (inRun : value ∈ run.values) : value ∈ rest ∨ value ∈ result := by
  induction hunks generalizing oldAt newAt rest result with
  | nil => cases held
  | cons first later induction =>
      rcases applyFrom?_cons_eq_some applied with ⟨fits, behind, appliedLater, rfl⟩
      rcases List.mem_cons.mp held with rfl | held
      · rcases Script.mem_old_or_new inBody inRun with inOld | inNew
        · exact .inl (List.mem_of_mem_drop (fits.found.mem inOld))
        · exact .inr (List.mem_append_right _ (List.mem_append_left _ inNew))
      · rcases induction appliedLater held with inRest | inBehind
        · exact .inl (List.mem_of_mem_drop inRest)
        · exact .inr (List.mem_append_right _ (List.mem_append_right _ inBehind))

theorem applyHunks?_hunksOf (old new : List Char) :
    applyHunks? (linesWithEnds old) (hunksOf old new) = some (linesWithEnds new) :=
  @Comparison.applyHunks?_hunks _ ⟨linesWithEnds old, linesWithEnds new⟩ _ _
    (leads_compactScript _ _)

theorem ofLines_of_mem_hunksOf {old new : List Char} {hunk : Hunk (List Char)}
    (held : hunk ∈ hunksOf old new) : hunk.OfLines := by
  intro run inBody line inRun
  rcases mem_of_applyFrom? (applyHunks?_hunksOf old new) held inBody inRun with inOld | inNew
  · exact isLine_of_mem_linesWithEnds inOld
  · exact isLine_of_mem_linesWithEnds inNew

theorem hunksOf_ne_nil {old new : List Char} (changed : old ≠ new) : hunksOf old new ≠ [] := by
  intro none
  have applied := applyHunks?_hunksOf old new
  rw [none] at applied
  have same := congrArg List.flatten (Option.some.inj applied)
  rw [flatten_linesWithEnds, flatten_linesWithEnds] at same
  exact changed same

/-! ## Carriage returns -/

/-- A line with a carriage return at its end, in front of the line feed if it has one. -/
def EndsReturned (line : List Char) : Prop :=
  ['\r'] <:+ line ∨ ['\r', '\n'] <:+ line

instance (line : List Char) : Decidable (EndsReturned line) :=
  inferInstanceAs (Decidable (_ ∨ _))

theorem endsReturned_concat {content : List Char} :
    EndsReturned (content ++ ['\n']) ↔ ['\r'] <:+ content := by
  constructor
  · rintro (⟨before, same⟩ | ⟨before, same⟩)
    · simpa using congrArg List.getLast? same
    · exact ⟨before, by simpa using congrArg List.dropLast same⟩
  · rintro ⟨before, rfl⟩
    exact .inr ⟨before, by simp⟩

theorem endsReturned_of_unfinished {line : List Char} (unfinished : line.getLast? ≠ some '\n') :
    EndsReturned line ↔ ['\r'] <:+ line := by
  refine ⟨?_, .inl⟩
  rintro (returned | ⟨before, rfl⟩)
  · exact returned
  · exact absurd (by simp) unfinished

/-- The end of a line takes a carriage return along or nothing. -/
theorem dropLineEnd_concat (content : List Char) :
    (dropLineEnd (content ++ ['\n']) = content ∧ ¬['\r'] <:+ content) ∨
      ((dropLineEnd (content ++ ['\n'])).length < content.length ∧ ['\r'] <:+ content) := by
  rcases List.eq_nil_or_concat content with rfl | ⟨front, c, rfl⟩
  · exact .inl ⟨rfl, by decide⟩
  · rw [List.concat_eq_append]
    by_cases isReturn : c = '\r'
    · exact .inr ⟨by simp [isReturn, dropLineEnd], front, by rw [isReturn]⟩
    · refine .inl ⟨by simp [isReturn, dropLineEnd], ?_⟩
      rintro ⟨before, same⟩
      exact isReturn (by simpa using congrArg List.getLast? same.symm)

/-- A line loses its carriage return or nothing. -/
theorem shownLine_eq_or (line : List Char) :
    (shownLine line = line ∧ ¬EndsReturned line) ∨
      ((shownLine line).length < line.length ∧ EndsReturned line) := by
  by_cases last : line.getLast? = some '\n'
  · rcases List.getLast?_eq_some_iff.mp last with ⟨content, rfl⟩
    rw [shownLine, if_pos last, rewritten, endsReturned_concat]
    rcases dropLineEnd_concat content with ⟨same, intact⟩ | ⟨shorter, returned⟩
    · exact .inl ⟨by rw [same], intact⟩
    · refine .inr ⟨?_, returned⟩
      rw [List.length_append, List.length_append]
      exact Nat.add_lt_add_right shorter _
  · rw [shownLine, if_neg last, endsReturned_of_unfinished last]
    exact dropLineEnd_concat line

theorem shownLine_of_not_endsReturned {line : List Char} (intact : ¬EndsReturned line) :
    shownLine line = line := by
  rcases shownLine_eq_or line with ⟨same, _⟩ | ⟨_, returned⟩
  · exact same
  · exact absurd returned intact

/-- Lines that are shown with as many characters as they have are shown as they are. -/
theorem length_shownLines (lines : List (List Char)) :
    (lines.map shownLine).flatten.length ≤ lines.flatten.length ∧
      (lines.flatten.length ≤ (lines.map shownLine).flatten.length →
        ∀ line ∈ lines, ¬EndsReturned line) := by
  induction lines with
  | nil => exact ⟨Nat.le_refl _, fun _ _ => nofun⟩
  | cons line lines induction =>
      rw [List.map_cons, List.flatten_cons, List.flatten_cons, List.length_append,
        List.length_append]
      rcases shownLine_eq_or line with ⟨same, intact⟩ | ⟨shorter, _⟩
      · rw [same]
        refine ⟨Nat.add_le_add_left induction.1 _, fun noShorter => ?_⟩
        exact List.forall_mem_cons.mpr ⟨intact, induction.2 (Nat.le_of_add_le_add_left noShorter)⟩
      · exact ⟨by omega, fun noShorter => absurd induction.1 (by omega)⟩

/-- No line that a hunk shows ends with a carriage return. -/
def Hunk.Intact (hunk : Hunk (List Char)) : Prop :=
  ∀ run ∈ hunk.body, ∀ line ∈ run.values, ¬EndsReturned line

instance (hunk : Hunk (List Char)) : Decidable hunk.Intact :=
  inferInstanceAs (Decidable (∀ run ∈ hunk.body, ∀ line ∈ run.values, ¬EndsReturned line))

/-- The lines of a kind of runs are all shown, and in their order. -/
theorem Script.values_shown (keeps : RunKind → Bool) (script : Script (List Char)) :
    ((script.entries.map fun (kind, line) => Run.mk kind [shownLine line]).filter
        fun run => keeps run.kind).flatMap Run.values =
      ((script.filter fun run => keeps run.kind).flatMap Run.values).map shownLine := by
  induction script with
  | nil => rfl
  | cons run later induction =>
      rcases run with ⟨kind, values⟩
      have here : ((values.map fun line => Run.mk kind [shownLine line]).filter
          fun run => keeps run.kind).flatMap Run.values =
            if keeps kind then values.map shownLine else [] := by
        induction values with
        | nil => simp
        | cons line values others => cases keep : keeps kind <;> simp_all
      have entries : Script.entries (⟨kind, values⟩ :: later) =
        values.map (kind, ·) ++ Script.entries later := rfl
      rw [entries, List.map_append, List.map_map, List.filter_append, List.flatMap_append,
        induction, List.filter_cons]
      refine (congrArg (· ++ _) here).trans ?_
      cases keeps kind
      · rfl
      · exact (List.map_append ..).symm

theorem Hunk.old_shown (hunk : Hunk (List Char)) :
    hunk.shown.body.old = hunk.body.old.map shownLine :=
  hunk.body.values_shown fun kind => kind ≠ .added

theorem Hunk.new_shown (hunk : Hunk (List Char)) :
    hunk.shown.body.new = hunk.body.new.map shownLine :=
  hunk.body.values_shown fun kind => kind ≠ .removed

theorem Hunk.intact_iff {hunk : Hunk (List Char)} :
    hunk.Intact ↔ (∀ line ∈ hunk.body.old, ¬EndsReturned line) ∧
      ∀ line ∈ hunk.body.new, ¬EndsReturned line := by
  constructor
  · refine fun intact => ⟨fun line member => ?_, fun line member => ?_⟩ <;>
      · rcases List.mem_flatMap.mp member with ⟨run, inBody, inRun⟩
        exact intact run (List.mem_of_mem_filter inBody) line inRun
  · rintro ⟨inOld, inNew⟩ run inBody line inRun
    rcases Script.mem_old_or_new inBody inRun with held | held
    · exact inOld line held
    · exact inNew line held

theorem map_shownLine {lines : List (List Char)} (intact : ∀ line ∈ lines, ¬EndsReturned line) :
    lines.map shownLine = lines :=
  (List.map_congr_left fun line member => shownLine_of_not_endsReturned (intact line member)).trans
    (List.map_id lines)

/-! ## Shown hunks in effect -/

/-- Hunks that lose nothing do what they did. -/
theorem applyFrom?_shown {hunks : List (Hunk (List Char))} (intact : ∀ hunk ∈ hunks, hunk.Intact)
    (oldAt newAt : Nat) (rest : List (List Char)) :
    applyFrom? oldAt newAt rest (hunks.map Hunk.shown) = applyFrom? oldAt newAt rest hunks := by
  induction hunks generalizing oldAt newAt rest with
  | nil => rfl
  | cons hunk later induction =>
      rcases List.forall_mem_cons.mp intact with ⟨first, others⟩
      rcases Hunk.intact_iff.mp first with ⟨inOld, inNew⟩
      have old : hunk.shown.body.old = hunk.body.old := by rw [hunk.old_shown, map_shownLine inOld]
      have new : hunk.shown.body.new = hunk.body.new := by rw [hunk.new_shown, map_shownLine inNew]
      have fits : hunk.shown.Fits oldAt newAt rest ↔ hunk.Fits oldAt newAt rest := by
        constructor
        · rintro ⟨starts, inside, newStart, oldCount, newCount, found⟩
          exact ⟨starts, inside, newStart, old ▸ oldCount, new ▸ newCount, old ▸ found⟩
        · rintro ⟨starts, inside, newStart, oldCount, newCount, found⟩
          exact ⟨starts, inside, newStart, old.symm ▸ oldCount, new.symm ▸ newCount,
            old.symm ▸ found⟩
      rw [List.map_cons, applyFrom?, applyFrom?]
      dsimp only
      rw [induction others, new]
      by_cases applies : hunk.Fits oldAt newAt rest
      · rw [if_pos applies, if_pos (fits.mpr applies)]
        rfl
      · rw [if_neg applies, if_neg (fun shown => applies (fits.mp shown))]

/-- Shown hunks that still fit make no more of a text than the hunks did, and as much only if they
have lost nothing. -/
theorem length_of_applyFrom?_shown {hunks : List (Hunk (List Char))} {oldAt newAt : Nat}
    {rest result shownResult : List (List Char)}
    (applied : applyFrom? oldAt newAt rest hunks = some result)
    (appliedShown : applyFrom? oldAt newAt rest (hunks.map Hunk.shown) = some shownResult) :
    shownResult.flatten.length ≤ result.flatten.length ∧
      (result.flatten.length ≤ shownResult.flatten.length → ∀ hunk ∈ hunks, hunk.Intact) := by
  induction hunks generalizing oldAt newAt rest result shownResult with
  | nil =>
      cases applied.symm.trans appliedShown
      exact ⟨Nat.le_refl _, fun _ _ => nofun⟩
  | cons hunk later induction =>
      rcases applyFrom?_cons_eq_some applied with ⟨fits, behind, appliedLater, rfl⟩
      rcases applyFrom?_cons_eq_some appliedShown with ⟨fitsShown, behindShown, shownLater, rfl⟩
      have laterLength := induction appliedLater shownLater
      -- What is found is as long as what is shown, so both are the same lines of the old text.
      have found : hunk.body.old = hunk.body.old.map shownLine := by
        have foundShown := fitsShown.found
        rw [hunk.old_shown] at foundShown
        have size : hunk.body.old.length = (hunk.body.old.map shownLine).length :=
          (List.length_map shownLine).symm
        have shorter := List.prefix_of_prefix_length_le fits.found foundShown (Nat.le_of_eq size)
        exact shorter.eq_of_length size
      have newLength := length_shownLines hunk.body.new
      have oldLength := length_shownLines hunk.body.old
      rw [← found] at oldLength
      have place : hunk.shown.oldStart = hunk.oldStart := rfl
      rw [hunk.new_shown, place]
      simp only [List.flatten_append, List.length_append]
      refine ⟨?_, fun noShorter => List.forall_mem_cons.mpr ⟨Hunk.intact_iff.mpr ⟨?_, ?_⟩, ?_⟩⟩
      · omega
      · exact oldLength.2 (Nat.le_refl _)
      · exact newLength.2 (by omega)
      · exact laterLength.2 (by omega)

/-- The patch of a text makes the new text of the old one if and only if it shows no line that ends
with a carriage return. -/
theorem applyDiff?_patchBody (old new : List Char) :
    applyDiff? (patchBody old new) old = some new ↔ ∀ hunk ∈ hunksOf old new, hunk.Intact := by
  have applied := applyHunks?_hunksOf old new
  rw [applyDiff?, readHunks?_patchBody fun _ => ofLines_of_mem_hunksOf, Option.bind_some]
  constructor
  · intro same
    rcases Option.map_eq_some_iff.mp same with ⟨lines, appliedShown, flat⟩
    have lengths := length_of_applyFrom?_shown applied appliedShown
    rw [flat, flatten_linesWithEnds] at lengths
    exact lengths.2 (Nat.le_refl _)
  · intro intact
    rw [applyHunks?, applyFrom?_shown intact]
    show (applyHunks? _ _).map _ = _
    rw [applied, Option.map_some, flatten_linesWithEnds]

/-! ## Patches of many files -/

/-- Maps that hold the same paths, however they are spelled. -/
def SamePaths (before after : PathMap String) : Prop :=
  List.Forall₂ (fun old new => old.1.sameComponents new.1 = true) before.entries after.entries

/-- A file that has another text afterwards. -/
structure TextChange where
  path : Path
  old : String
  new : String

/-- The files whose texts differ, in the order of their paths. -/
def changedFiles (before after : PathMap String) : List TextChange :=
  ((before.entries.zip after.entries).map fun pair => ⟨pair.1.1, pair.1.2, pair.2.2⟩).filter
    fun file => file.old ≠ file.new

/-- Hunks follow each other to the end of the body of a patch, and applied to the old text they make
the new one if and only if they show no line that ends with a carriage return. -/
structure BodyReads (old new : List Char) : Prop where
  hunks : ∃ hunks, hunks ≠ [] ∧ readHunks? (patchBody old new) = some hunks
  reproduces : applyDiff? (patchBody old new) old = some new ↔
    ∀ hunk ∈ hunksOf old new, hunk.Intact

/-- A patch has one header for each file that changes, and a body that is read back. -/
structure PatchReads (before after : PathMap String) : Prop where
  text : (patch before after).toList = (changedFiles before after).flatMap
    fun file => patchHeader file.path ++ patchBody file.old.toList file.new.toList
  ordered : (changedFiles before after).Pairwise fun first second => first.path.Before second.path
  bodies : ∀ file ∈ changedFiles before after, BodyReads file.old.toList file.new.toList

section

variable {before after : PathMap String}

theorem find?_of_samePaths (sorted : PathMap.Sorted after.entries)
    (samePaths : SamePaths before after) {old new : Path × String}
    (pair : (old, new) ∈ before.entries.zip after.entries) :
    after.find? old.1 = some new.2 := by
  have same : old.1.components = new.1.components :=
    of_decide_eq_true (List.forall₂_zip samePaths pair)
  have found := PathMap.lookup_of_mem sorted (List.of_mem_zip pair).2
  rw [PathMap.find?]
  simp only [PathMap.lookup, Path.sameComponents, ← same] at found ⊢
  exact found

theorem map_fst_zip_entries (samePaths : SamePaths before after) :
    (before.entries.zip after.entries).map Prod.fst = before.entries :=
  List.map_fst_zip (Nat.le_of_eq samePaths.length_eq)

/-- Files that have not changed leave no trace. -/
theorem flatMap_filePatch (files : List TextChange) :
    (files.flatMap fun file => filePatch file.path file.old file.new) =
      (files.filter fun file => file.old ≠ file.new).flatMap
        fun file => patchHeader file.path ++ patchBody file.old.toList file.new.toList := by
  induction files with
  | nil => rfl
  | cons file files induction =>
      rw [List.flatMap_cons, induction]
      by_cases same : file.old = file.new
      · simp [filePatch, same]
      · simp [filePatch, same]

theorem patch_text (sorted : PathMap.Sorted after.entries) (samePaths : SamePaths before after) :
    (patch before after).toList = (changedFiles before after).flatMap
      fun file => patchHeader file.path ++ patchBody file.old.toList file.new.toList := by
  have files : before.entries.flatMap
      (fun entry => filePatch entry.1 entry.2 ((after.find? entry.1).getD entry.2)) =
        (before.entries.zip after.entries).flatMap
          fun pair => filePatch pair.1.1 pair.1.2 pair.2.2 := by
    conv_lhs => rw [← map_fst_zip_entries samePaths]
    rw [List.flatMap_map]
    refine List.flatMap_congr fun pair member => ?_
    rw [find?_of_samePaths sorted samePaths member]
    rfl
  rw [changedFiles, ← flatMap_filePatch, List.flatMap_map, ← files]
  exact String.toList_ofList

/-- The patch of two maps with the same paths has one header for each file that changes, in the order
of the paths, and hunks behind it that make the new text of the old one, unless they show a line that
ends with a carriage return. -/
theorem patch_reads (sorted : PathMap.Sorted before.entries)
    (sorted' : PathMap.Sorted after.entries) (samePaths : SamePaths before after) :
    PatchReads before after where
  text := patch_text sorted' samePaths
  ordered := by
    have zipped : ((before.entries.zip after.entries).map Prod.fst).Pairwise
        fun first second => first.1.Before second.1 := by
      rw [map_fst_zip_entries samePaths]
      exact sorted
    have apart := List.pairwise_map.mp zipped
    exact List.Pairwise.filter _ (List.pairwise_map.mpr apart)
  bodies := by
    intro file member
    have changed : file.old ≠ file.new := by simpa using (List.mem_filter.mp member).2
    have changed' : file.old.toList ≠ file.new.toList := fun same =>
      changed (String.toList_inj.mp same)
    refine ⟨⟨_, fun empty => ?_, readHunks?_patchBody fun _ => ofLines_of_mem_hunksOf⟩,
      applyDiff?_patchBody _ _⟩
    exact hunksOf_ne_nil changed' (List.map_eq_nil_iff.mp empty)

end

/-- A text that stays and two that change: one has no line feed at its end, and in the other a
carriage return stands far from the change. -/
def drafts : PathMap String :=
  .ofList [(⟨"b.ts"⟩, "one\ntwo"), (⟨"a.ts"⟩, "same\r\n"), (⟨"c.ts"⟩, "1\n2\n3\n4\n5\r\n")]

def revised : PathMap String :=
  .ofList [(⟨"b.ts"⟩, "one\nand\rtwo\n"), (⟨"a.ts"⟩, "same\r\n"), (⟨"c.ts"⟩, "0\n1\n2\n3\n4\n5\r\n")]

theorem patch_reads_drafts :
    (changedFiles drafts revised).map TextChange.path = [⟨"b.ts"⟩, ⟨"c.ts"⟩] ∧
    ∀ file ∈ changedFiles drafts revised,
      applyDiff? (patchBody file.old.toList file.new.toList) file.old.toList =
        some file.new.toList := by
  have samePaths : SamePaths drafts revised := by
    rw [SamePaths]
    decide +kernel
  have reads := patch_reads (PathMap.sorted_ofList _) (PathMap.sorted_ofList _) samePaths
  refine ⟨by decide +kernel, fun file member => (reads.bodies file member).reproduces.mpr ?_⟩
  revert file
  decide +kernel

/-- A line is added between lines that end with carriage returns. The patch does not find them in the
old text. -/
theorem patch_dropsReturns :
    let old := "class A \x7b\r\n\x7d\r\n"
    let new := "class A \x7b\r\n    x;\r\n\x7d\r\n"
    patch (.ofList [(⟨"a.ts"⟩, old)]) (.ofList [(⟨"a.ts"⟩, new)]) =
      String.ofList (patchHeader ⟨"a.ts"⟩ ++ patchBody old.toList new.toList) ∧
    applyDiff? (patchBody old.toList new.toList) old.toList = none := by
  decide +kernel

end MemberStubs.Diff
