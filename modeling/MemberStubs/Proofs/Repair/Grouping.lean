import Mathlib.Data.List.Induction
import MemberStubs.Proofs.Path.NormalForm
import MemberStubs.Proofs.PathMap
import MemberStubs.Repair.Batch

/-! The files of a batch: one for each normal path of a recognized diagnostic, in the order of the
paths, with the recognized diagnostics of that path in the order in which they are given. -/

namespace MemberStubs

namespace Batch

/-- The recognized diagnostics of a file that is given by its normal path. -/
def sited (diagnostics : List Diagnostic) (path : Path) : List Diagnostic :=
  diagnostics.filter fun diagnostic => diagnostic.isRecognized && diagnostic.file.normalize = path

def paths (diagnostics : List Diagnostic) : List Path :=
  (byFile diagnostics).entries.map Prod.fst

/-- What the groups hold after some diagnostics. -/
structure Grouped (diagnostics : List Diagnostic) (entries : List (Path × List Diagnostic)) :
    Prop where
  sorted : PathMap.Sorted entries
  normal : ∀ entry ∈ entries, entry.1.normalize = entry.1
  nonempty : ∀ entry ∈ entries, entry.2 ≠ []
  group : ∀ path, path.normalize = path →
    (PathMap.lookup entries path).getD [] = diagnostics.filter (·.file.normalize = path)

namespace Grouped

variable {diagnostics : List Diagnostic} {entries : List (Path × List Diagnostic)}

theorem nil : Grouped [] [] :=
  ⟨List.Pairwise.nil, by simp, by simp, fun _ _ => rfl⟩

theorem push (grouped : Grouped diagnostics entries) (diagnostic : Diagnostic) :
    Grouped (diagnostics ++ [diagnostic])
      (PathMap.push ⟨entries⟩ diagnostic.file.normalize diagnostic).entries := by
  have sorted : PathMap.Sorted (PathMap.push ⟨entries⟩ diagnostic.file.normalize
      diagnostic).entries := PathMap.sorted_updateEntries grouped.sorted
  refine ⟨sorted, fun entry member => ?_, fun entry member => ?_, fun path normal => ?_⟩
  · rcases PathMap.key_of_mem_updateEntries member with same | ⟨old, stored, same⟩
    · rw [same, Path.normalize_normalize]
    · rw [← same]
      exact grouped.normal old stored
  · have found := PathMap.lookup_of_mem sorted member
    rw [PathMap.push, PathMap.update, PathMap.lookup_updateEntries grouped.sorted] at found
    split at found
    · rw [← Option.some.inj found]
      simp
    · rcases PathMap.exists_mem_of_lookup found with ⟨key, stored, _⟩
      have something := grouped.nonempty _ stored
      exact something
  · have spelled : diagnostic.file.normalize.sameComponents path = true ↔
        diagnostic.file.normalize = path := by
      rw [Path.sameComponents, decide_eq_true_eq, ← normal, ← Path.normalize_eq_iff]
    rw [PathMap.push, PathMap.update, PathMap.lookup_updateEntries grouped.sorted,
      List.filter_append]
    by_cases same : diagnostic.file.normalize = path
    · rw [if_pos (spelled.mpr same), Option.getD_some,
        grouped.group _ (Path.normalize_normalize _), same]
      simp [same]
    · rw [if_neg (mt spelled.mp same), grouped.group path normal]
      simp [same]

end Grouped

theorem grouped_byFile (diagnostics : List Diagnostic) :
    Grouped (diagnostics.filter Diagnostic.isRecognized) (byFile diagnostics).entries := by
  rw [byFile]
  induction diagnostics.filter Diagnostic.isRecognized using List.reverseRecOn with
  | nil => exact Grouped.nil
  | append_singleton recognized diagnostic induction =>
      rw [List.foldl_append]
      exact induction.push diagnostic

theorem sited_eq (diagnostics : List Diagnostic) (path : Path) :
    sited diagnostics path =
      (diagnostics.filter Diagnostic.isRecognized).filter (·.file.normalize = path) := by
  rw [sited, List.filter_filter]
  simp only [Bool.and_comm]

theorem mem_sited_iff {diagnostics : List Diagnostic} {path : Path} {diagnostic : Diagnostic} :
    diagnostic ∈ sited diagnostics path ↔
      diagnostic ∈ diagnostics ∧ diagnostic.isRecognized = true ∧
        diagnostic.file.normalize = path := by
  rw [sited, List.mem_filter, Bool.and_eq_true, decide_eq_true_eq]

theorem paths_increasing (diagnostics : List Diagnostic) :
    (paths diagnostics).Pairwise Path.Before :=
  List.pairwise_map.mpr (grouped_byFile diagnostics).sorted

theorem entries_byFile (diagnostics : List Diagnostic) :
    (byFile diagnostics).entries = (paths diagnostics).map fun path =>
      (path, sited diagnostics path) := by
  have grouped := grouped_byFile diagnostics
  have held : ∀ entry ∈ (byFile diagnostics).entries,
      entry = (entry.1, sited diagnostics entry.1) := by
    intro entry stored
    have whole := grouped.group entry.1 (grouped.normal entry stored)
    rw [PathMap.lookup_of_mem grouped.sorted stored, Option.getD_some, ← sited_eq] at whole
    rw [← whole]
  rw [paths, List.map_map]
  exact (List.map_id _).symm.trans (List.map_congr_left held)

theorem mem_paths_iff {diagnostics : List Diagnostic} {path : Path} :
    path ∈ paths diagnostics ↔
      ∃ diagnostic ∈ diagnostics, diagnostic.isRecognized = true ∧
        diagnostic.file.normalize = path := by
  have grouped := grouped_byFile diagnostics
  constructor
  · intro member
    rcases List.mem_map.mp member with ⟨entry, stored, rfl⟩
    have something := grouped.nonempty entry stored
    have held := grouped.group entry.1 (grouped.normal entry stored)
    rw [PathMap.lookup_of_mem grouped.sorted stored, Option.getD_some] at held
    rw [held] at something
    rcases List.exists_mem_of_ne_nil _ something with ⟨diagnostic, kept⟩
    have parts := List.mem_filter.mp kept
    have given := List.mem_filter.mp parts.1
    exact ⟨diagnostic, given.1, given.2, by simpa using parts.2⟩
  · rintro ⟨diagnostic, given, recognized, rfl⟩
    have held := grouped.group _ (Path.normalize_normalize diagnostic.file)
    have present : diagnostic ∈ (PathMap.lookup (byFile diagnostics).entries
        diagnostic.file.normalize).getD [] := by
      rw [held]
      simp [given, recognized]
    cases found : PathMap.lookup (byFile diagnostics).entries diagnostic.file.normalize with
    | none => simp [found] at present
    | some group =>
        rcases PathMap.exists_mem_of_lookup found with ⟨key, stored, spelled⟩
        have normal := grouped.normal _ stored
        have same : key = diagnostic.file.normalize := by
          rw [← show key.normalize = key from normal] at spelled ⊢
          exact Path.normalize_eq_iff.mpr spelled
        rw [← same]
        exact List.mem_map.mpr ⟨_, stored, rfl⟩

theorem mem_paths_of_mem_sited {diagnostics : List Diagnostic} {path : Path}
    {diagnostic : Diagnostic} (given : diagnostic ∈ sited diagnostics path) :
    path ∈ paths diagnostics :=
  mem_paths_iff.mpr ⟨diagnostic, mem_sited_iff.mp given⟩

end Batch

end MemberStubs
