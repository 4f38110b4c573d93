import Mathlib.Data.List.Infix
import MemberStubs.Proofs.Repair.Batch

/-! A batch that someone else may cancel. It looks at the flag before each file, so it either is the
whole batch or ends before a file, and then holds what the batch of the files before that one holds.
The flag can be found up before any of the files. -/

namespace MemberStubs

namespace Batch

variable {program : Program} {style : StubStyle} {diagnostics : List Diagnostic}

/-- The recognized diagnostics of some files that are given by their normal paths. -/
def within (diagnostics : List Diagnostic) (chosen : List Path) : List Diagnostic :=
  diagnostics.filter fun diagnostic =>
    diagnostic.isRecognized && diagnostic.file.normalize ∈ chosen

/-- The recognized diagnostics of a file are at least one, and each takes a lookup. -/
theorem length_sited_pos {path : Path} (member : path ∈ paths diagnostics) :
    0 < (sited diagnostics path).length := by
  rcases mem_paths_iff.mp member with ⟨diagnostic, given, recognized, atPath⟩
  exact List.length_pos_of_mem (mem_sited_iff.mpr ⟨given, recognized, atPath⟩)

section

variable {chosen : List Path}

theorem sited_within {path : Path} (member : path ∈ chosen) :
    sited (within diagnostics chosen) path = sited diagnostics path := by
  rw [sited, sited, within, List.filter_filter]
  apply List.filter_congr
  intro diagnostic _
  by_cases atPath : diagnostic.file.normalize = path
  · simp [atPath, member]
  · simp [atPath]

theorem paths_within (part : chosen.Sublist (paths diagnostics)) :
    paths (within diagnostics chosen) = chosen := by
  refine Path.eq_of_increasing (paths_increasing _) ((paths_increasing diagnostics).sublist part)
    fun path => ?_
  rw [mem_paths_iff]
  constructor
  · rintro ⟨diagnostic, given, _, rfl⟩
    simpa using (Bool.and_eq_true_iff.mp (List.mem_filter.mp given).2).2
  · intro member
    rcases mem_paths_iff.mp (part.subset member) with ⟨diagnostic, given, recognized, rfl⟩
    exact ⟨diagnostic, List.mem_filter.mpr ⟨given, by simp [recognized, member]⟩, recognized, rfl⟩

/-- The groups of some of the files are those that these files have among all. -/
theorem entries_byFile_within (part : chosen.Sublist (paths diagnostics)) :
    (byFile (within diagnostics chosen)).entries =
      chosen.map fun path => (path, sited diagnostics path) := by
  rw [entries_byFile, paths_within part]
  apply List.map_congr_left
  intro path member
  rw [sited_within member]

/-- The batch of some of the files holds of each what the whole batch holds of it. -/
theorem repairAll_within (program : Program) (style : StubStyle)
    (part : chosen.Sublist (paths diagnostics)) :
    repairAll program style (within diagnostics chosen) =
      { edits := { files := chosen.filterMap (fileEdit? program style diagnostics) }
        failures := chosen.flatMap (failuresAt program style diagnostics) } := by
  rw [repairAll, entries_byFile_within part, foldl_addGroup]
  rfl

end

/-! ## Lookups

How many classes are looked up in some files. The flag goes up with one of these lookups. -/

def lookupCount (diagnostics : List Diagnostic) (chosen : List Path) : Nat :=
  (chosen.flatMap (sited diagnostics)).length

theorem lookupCount_cons (diagnostics : List Diagnostic) (path : Path) (chosen : List Path) :
    lookupCount diagnostics (path :: chosen) =
      (sited diagnostics path).length + lookupCount diagnostics chosen := by
  rw [lookupCount, List.flatMap_cons, List.length_append]
  rfl

/-- One more file takes more lookups. -/
theorem lookupCount_take_lt {first second : Nat} (before : first < second)
    (within : second ≤ (paths diagnostics).length) :
    lookupCount diagnostics ((paths diagnostics).take first) <
      lookupCount diagnostics ((paths diagnostics).take second) := by
  have needed : ∀ path ∈ paths diagnostics, 0 < (sited diagnostics path).length :=
    fun path => length_sited_pos
  generalize paths diagnostics = files at within needed
  induction files generalizing first second with
  | nil => simp at within; omega
  | cons path files induction =>
      have here := needed path (List.mem_cons_self ..)
      cases second with
      | zero => omega
      | succ second =>
          rw [List.take_succ_cons, lookupCount_cons]
          cases first with
          | zero =>
              show 0 < _
              omega
          | succ first =>
              rw [List.take_succ_cons, lookupCount_cons]
              have later := induction (Nat.lt_of_succ_lt_succ before)
                (Nat.le_of_succ_le_succ within)
                fun other member => needed other (List.mem_cons_of_mem _ member)
              omega

end Batch

namespace CancellableBatch

open Batch

variable {program : Program} {style : StubStyle} {diagnostics : List Diagnostic}
  {raisedAfter : Option Nat}

theorem foldl_addGroup_of_cancelled {run : CancellableBatch} (cancelled : run.cancelled = true)
    (groups : List (Path × List Diagnostic)) :
    groups.foldl (addGroup program style raisedAfter) run = run := by
  have still : ∀ group, addGroup program style raisedAfter run group = run := by
    intro group
    rw [addGroup, cancelled, Bool.true_or, if_pos rfl, ← cancelled]
  induction groups with
  | nil => rfl
  | cons group groups induction => rw [List.foldl_cons, still, induction]

theorem addGroup_of_raised {run : CancellableBatch}
    (raised : isRaised raisedAfter run.lookups = true) (group : Path × List Diagnostic) :
    addGroup program style raisedAfter run group = { run with cancelled := true } := by
  rw [addGroup, raised, Bool.or_true, if_pos rfl]

theorem addGroup_of_not_raised {run : CancellableBatch} (going : run.cancelled = false)
    (down : isRaised raisedAfter run.lookups = false) (group : Path × List Diagnostic) :
    addGroup program style raisedAfter run group =
      { batch := run.batch.addGroup program style group
        lookups := run.lookups + group.2.length } := by
  rw [addGroup, going, down, Bool.or_false, if_neg Bool.false_ne_true]

/-- A run goes through the files before the first one at which it finds the flag up. -/
theorem foldl_addGroup (diagnostics : List Diagnostic) (files : List Path)
    {run : CancellableBatch} (going : run.cancelled = false) :
    ∃ number ≤ files.length,
      (∀ earlier < number, isRaised raisedAfter
        (run.lookups + lookupCount diagnostics (files.take earlier)) = false) ∧
      (number < files.length → isRaised raisedAfter
        (run.lookups + lookupCount diagnostics (files.take number)) = true) ∧
      (files.map fun path => (path, sited diagnostics path)).foldl
          (addGroup program style raisedAfter) run =
        { batch := ((files.take number).map fun path => (path, sited diagnostics path)).foldl
            (Batch.addGroup program style) run.batch
          lookups := run.lookups + lookupCount diagnostics (files.take number)
          cancelled := number < files.length } := by
  induction files generalizing run with
  | nil => exact ⟨0, Nat.le_refl 0, nofun, nofun, by simp [lookupCount, ← going]⟩
  | cons path files induction =>
      rw [List.map_cons, List.foldl_cons]
      cases raised : isRaised raisedAfter run.lookups with
      | true =>
          refine ⟨0, Nat.zero_le _, nofun, fun _ => raised, ?_⟩
          rw [addGroup_of_raised raised, foldl_addGroup_of_cancelled rfl]
          simp [lookupCount]
      | false =>
          rw [addGroup_of_not_raised going raised]
          rcases @induction
            { batch := run.batch.addGroup program style (path, sited diagnostics path)
              lookups := run.lookups + (sited diagnostics path).length } rfl with
            ⟨number, bound, down, up, result⟩
          simp only [Nat.add_assoc, ← lookupCount_cons] at down up result
          refine ⟨number + 1, Nat.succ_le_succ bound, fun earlier before => ?_, fun inside => ?_, ?_⟩
          · cases earlier with
            | zero => exact raised
            | succ earlier => exact down earlier (Nat.lt_of_succ_lt_succ before)
          · exact up (Nat.lt_of_succ_lt_succ inside)
          · rw [result]
            simp only [List.take_succ_cons, List.map_cons, List.foldl_cons, List.length_cons,
              Nat.add_lt_add_iff_right]

/-- What a batch holds that finds the flag up before one of its files, which are counted from zero.
-/
structure StopsBefore (program : Program) (style : StubStyle) (diagnostics : List Diagnostic)
    (raisedAfter : Option Nat) (files : List Path) (number : Nat) (run : CancellableBatch) :
    Prop where
  down : ∀ earlier < number,
    isRaised raisedAfter (lookupCount diagnostics (files.take earlier)) = false
  up : isRaised raisedAfter (lookupCount diagnostics (files.take number)) = true
  cancelled : run.cancelled = true
  batch : run.batch = repairAll program style (within diagnostics (files.take number))
  edits : run.batch.edits.files <+: (repairAll program style diagnostics).edits.files
  failures : run.batch.failures <+: (repairAll program style diagnostics).failures

/-- What a batch holds that finds the flag down before each of its files. -/
structure Completes (program : Program) (style : StubStyle) (diagnostics : List Diagnostic)
    (raisedAfter : Option Nat) (files : List Path) (run : CancellableBatch) : Prop where
  down : ∀ number < files.length,
    isRaised raisedAfter (lookupCount diagnostics (files.take number)) = false
  cancelled : run.cancelled = false
  batch : run.batch = repairAll program style diagnostics

theorem prefix_repairAll_take (program : Program) (style : StubStyle)
    (diagnostics : List Diagnostic) (number : Nat) :
    let batch := repairAll program style (within diagnostics ((paths diagnostics).take number))
    batch.edits.files <+: (repairAll program style diagnostics).edits.files ∧
      batch.failures <+: (repairAll program style diagnostics).failures := by
  have front := List.take_prefix number (paths diagnostics)
  rw [repairAll_within program style front.sublist, repairAll_eq]
  exact ⟨front.filterMap _, front.flatMap _⟩

/-- A run completes, or stops before the first file at which it finds the flag up. -/
theorem completes_or_stopsBefore (program : Program) (style : StubStyle)
    (diagnostics : List Diagnostic) (raisedAfter : Option Nat) :
    Completes program style diagnostics raisedAfter (paths diagnostics)
        (repairCancellable program style diagnostics raisedAfter) ∨
      ∃ number < (paths diagnostics).length,
        StopsBefore program style diagnostics raisedAfter (paths diagnostics) number
          (repairCancellable program style diagnostics raisedAfter) := by
  rcases @foldl_addGroup program style raisedAfter diagnostics (paths diagnostics) {} rfl with
    ⟨number, bound, down, up, result⟩
  simp only [Nat.zero_add] at down up
  have batch : (repairCancellable program style diagnostics raisedAfter).batch =
      repairAll program style (within diagnostics ((paths diagnostics).take number)) := by
    rw [repairCancellable, entries_byFile, result, repairAll,
      entries_byFile_within (List.take_sublist ..)]
  have cancelled : (repairCancellable program style diagnostics raisedAfter).cancelled =
      decide (number < (paths diagnostics).length) := by
    rw [repairCancellable, entries_byFile, result]
  by_cases inside : number < (paths diagnostics).length
  · right
    rcases prefix_repairAll_take program style diagnostics number with ⟨edits, failures⟩
    rw [← batch] at edits failures
    exact ⟨number, inside, down, up inside, by simp [cancelled, inside], batch, edits, failures⟩
  · left
    have all : (paths diagnostics).take number = paths diagnostics :=
      List.take_of_length_le (Nat.le_of_not_lt inside)
    refine ⟨fun earlier before => down earlier (by omega), by simp [cancelled, inside], ?_⟩
    rw [batch, all, repairAll_within program style (List.Sublist.refl _), repairAll_eq]

/-- The flag can go up in time for any of the files. -/
theorem exists_stopsBefore (program : Program) (style : StubStyle)
    (diagnostics : List Diagnostic) {number : Nat} (inside : number < (paths diagnostics).length) :
    ∃ raisedAfter, StopsBefore program style diagnostics raisedAfter (paths diagnostics) number
      (repairCancellable program style diagnostics raisedAfter) := by
  refine ⟨some (lookupCount diagnostics ((paths diagnostics).take number)), ?_⟩
  have raised_iff (count : Nat) :
      isRaised (some (lookupCount diagnostics ((paths diagnostics).take number))) count = true ↔
        lookupCount diagnostics ((paths diagnostics).take number) ≤ count := by
    simp [isRaised]
  rcases completes_or_stopsBefore program style diagnostics
      (some (lookupCount diagnostics ((paths diagnostics).take number))) with
    completes | ⟨found, before, stops⟩
  · have down := completes.down number inside
    rw [(raised_iff _).mpr (Nat.le_refl _)] at down
    cases down
  · have same : found = number := by
      rcases Nat.lt_trichotomy found number with less | same | greater
      · have up := (raised_iff _).mp stops.up
        have fewer := lookupCount_take_lt less (Nat.le_of_lt inside)
        omega
      · exact same
      · have down := stops.down number greater
        rw [(raised_iff _).mpr (Nat.le_refl _)] at down
        cases down
    exact same ▸ stops

end CancellableBatch

/-- A batch that may be cancelled is the whole batch, or that of the files before the first one at
which the flag is up, of which it holds all and of the others nothing. -/
theorem repairCancellable_prefix (program : Program) (style : StubStyle)
    (diagnostics : List Diagnostic) :
    ∃ files : List Path,
      files.Pairwise Path.Before ∧
      (∀ path, path ∈ files ↔
        ∃ diagnostic ∈ diagnostics, diagnostic.isRecognized = true ∧
          diagnostic.file.normalize = path) ∧
      (∀ raisedAfter,
        CancellableBatch.Completes program style diagnostics raisedAfter files
            (repairCancellable program style diagnostics raisedAfter) ∨
          ∃ number < files.length,
            CancellableBatch.StopsBefore program style diagnostics raisedAfter files number
              (repairCancellable program style diagnostics raisedAfter)) ∧
      ∀ number < files.length, ∃ raisedAfter,
        CancellableBatch.StopsBefore program style diagnostics raisedAfter files number
          (repairCancellable program style diagnostics raisedAfter) :=
  ⟨Batch.paths diagnostics, Batch.paths_increasing diagnostics, fun _ => Batch.mem_paths_iff,
    CancellableBatch.completes_or_stopsBefore program style diagnostics,
    fun _ => CancellableBatch.exists_stopsBefore program style diagnostics⟩

end MemberStubs
