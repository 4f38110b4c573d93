import Mathlib.Data.List.Induction
import MemberStubs.PathMap
import MemberStubs.Proofs.Path.Order

/-! A path map holds its entries in strictly increasing order, so a path has at most one entry, and
an update changes the value of one path and leaves every other path alone. -/

namespace MemberStubs

open Std

def Path.Before (first second : Path) : Prop :=
  first.compare second = .lt

namespace Path.Before

theorem trans {first second third : Path} (below : first.Before second)
    (above : second.Before third) : first.Before third :=
  TransCmp.lt_trans below above

theorem sameComponents_eq_false {first second : Path} (before : first.Before second) :
    first.sameComponents second = false := by
  rw [sameComponents, decide_eq_false_iff_not, ← compare_eq_eq_iff]
  intro equal
  exact absurd (before.symm.trans equal) (by decide)

theorem ne {first second : Path} (before : first.Before second) : first ≠ second := by
  rintro rfl
  have apart := before.sameComponents_eq_false
  simp [Path.sameComponents] at apart

end Path.Before

/-- An increasing list of paths is determined by its members. -/
theorem Path.eq_of_increasing {first second : List Path} (increasing : first.Pairwise Path.Before)
    (increasing' : second.Pairwise Path.Before) (same : ∀ path, path ∈ first ↔ path ∈ second) :
    first = second := by
  have nodup : ∀ {paths : List Path}, paths.Pairwise Path.Before → paths.Nodup :=
    fun increasing => increasing.imp fun before => before.ne
  have perm := (List.perm_ext_iff_of_nodup (nodup increasing) (nodup increasing')).mpr same
  refine perm.eq_of_pairwise ?_ increasing increasing'
  intro path other _ _ before after
  exact absurd rfl (before.trans after).ne

namespace PathMap

variable {α : Type} {entries : List (Path × α)} {path : Path} {change : Option α → α}

def Sorted (entries : List (Path × α)) : Prop :=
  entries.Pairwise fun first second => first.1.Before second.1

def lookup (entries : List (Path × α)) (path : Path) : Option α :=
  (entries.find? fun entry => entry.1.sameComponents path).map Prod.snd

theorem lookup_cons (key : Path) (value : α) (entries : List (Path × α)) (path : Path) :
    lookup ((key, value) :: entries) path =
      if key.sameComponents path then some value else lookup entries path := by
  rw [lookup, List.find?_cons]
  cases key.sameComponents path <;> rfl

/-- A key is an old one or the path of the update. -/
theorem key_of_mem_updateEntries {entry : Path × α}
    (member : entry ∈ updateEntries path change entries) :
    entry.1 = path ∨ ∃ old ∈ entries, old.1 = entry.1 := by
  induction entries with
  | nil =>
      rw [updateEntries, List.mem_singleton] at member
      exact Or.inl (by rw [member])
  | cons head entries induction =>
      rcases head with ⟨key, value⟩
      rw [updateEntries] at member
      split at member
      · rcases List.mem_cons.mp member with rfl | member
        · exact Or.inl rfl
        · exact Or.inr ⟨entry, member, rfl⟩
      · rcases List.mem_cons.mp member with rfl | member
        · exact Or.inr ⟨(key, value), List.mem_cons_self .., rfl⟩
        · exact Or.inr ⟨entry, List.mem_cons_of_mem _ member, rfl⟩
      · rcases List.mem_cons.mp member with rfl | member
        · exact Or.inr ⟨(key, value), List.mem_cons_self .., rfl⟩
        · rcases induction member with same | ⟨old, stored, same⟩
          · exact Or.inl same
          · exact Or.inr ⟨old, List.mem_cons_of_mem _ stored, same⟩

theorem sorted_updateEntries (sorted : Sorted entries) :
    Sorted (updateEntries path change entries) := by
  induction entries with
  | nil => exact List.pairwise_singleton ..
  | cons head entries induction =>
      rcases head with ⟨key, value⟩
      rcases List.pairwise_cons.mp sorted with ⟨below, rest⟩
      rw [updateEntries]
      split
      · next before =>
          refine List.pairwise_cons.mpr ⟨fun entry member => ?_, sorted⟩
          rcases List.mem_cons.mp member with rfl | member
          · exact before
          · exact Path.Before.trans before (below entry member)
      · exact List.pairwise_cons.mpr ⟨below, rest⟩
      · next after =>
          have keyFirst : key.Before path := OrientedCmp.lt_of_gt after
          refine List.pairwise_cons.mpr ⟨fun entry member => ?_, induction rest⟩
          rcases key_of_mem_updateEntries member with same | ⟨old, stored, same⟩
          · rw [same]
            exact keyFirst
          · rw [← same]
            exact below old stored

theorem lookup_eq_none {entries : List (Path × α)}
    (apart : ∀ entry ∈ entries, entry.1.sameComponents path = false) :
    lookup entries path = none := by
  rw [lookup, List.find?_eq_none.mpr fun entry member => by simp [apart entry member]]
  rfl

/-- The entries behind one that comes after a path say nothing about the path. -/
theorem lookup_eq_none_of_before (sorted : Sorted entries)
    (before : ∀ head ∈ entries.head?, path.Before head.1) : lookup entries path = none := by
  apply lookup_eq_none
  intro entry member
  have later : path.Before entry.1 := by
    cases entries with
    | nil => cases member
    | cons head entries =>
        have first := before head rfl
        rcases List.mem_cons.mp member with rfl | member
        · exact first
        · exact first.trans ((List.pairwise_cons.mp sorted).1 entry member)
  simpa [Path.sameComponents, eq_comm] using later.sameComponents_eq_false

theorem lookup_updateEntries (sorted : Sorted entries) (other : Path) :
    lookup (updateEntries path change entries) other =
      if path.sameComponents other then some (change (lookup entries path))
      else lookup entries other := by
  induction entries with
  | nil => rw [updateEntries, lookup_cons]; rfl
  | cons head entries induction =>
      rcases head with ⟨key, value⟩
      have rest := (List.pairwise_cons.mp sorted).2
      rw [updateEntries]
      split
      · next before =>
          have fresh : lookup ((key, value) :: entries) path = none :=
            lookup_eq_none_of_before sorted fun head first => by
              cases first
              exact before
          rw [fresh, lookup_cons]
      · next equal =>
          have same := Path.compare_eq_eq_iff.mp equal
          have spelled : key.sameComponents other = path.sameComponents other := by
            simp only [Path.sameComponents, same]
          have found : key.sameComponents path = true := by
            simp [Path.sameComponents, same]
          rw [lookup_cons, lookup_cons, lookup_cons, spelled, found]
          cases path.sameComponents other <;> rfl
      · next after =>
          have keyFirst : key.Before path := OrientedCmp.lt_of_gt after
          rw [lookup_cons, lookup_cons, lookup_cons, keyFirst.sameComponents_eq_false,
            induction rest]
          cases keyOther : key.sameComponents other with
          | true =>
              have different : path.sameComponents other = false := by
                have apart := keyFirst.sameComponents_eq_false
                simp only [Path.sameComponents, decide_eq_true_eq, decide_eq_false_iff_not]
                  at keyOther apart ⊢
                rw [← keyOther]
                exact fun same => apart same.symm
              rw [different]
              rfl
          | false => rfl

theorem lookup_of_mem (sorted : Sorted entries) {value : α} (member : (path, value) ∈ entries) :
    lookup entries path = some value := by
  induction entries with
  | nil => cases member
  | cons head entries induction =>
      rcases head with ⟨key, first⟩
      rcases List.pairwise_cons.mp sorted with ⟨below, rest⟩
      rw [lookup_cons]
      rcases List.mem_cons.mp member with same | member
      · cases same
        simp [Path.sameComponents]
      · rw [(below _ member).sameComponents_eq_false]
        exact induction rest member

theorem exists_mem_of_lookup {value : α} (found : lookup entries path = some value) :
    ∃ key, (key, value) ∈ entries ∧ key.components = path.components := by
  rcases Option.map_eq_some_iff.mp found with ⟨⟨key, stored⟩, first, rfl⟩
  refine ⟨key, List.mem_of_find?_eq_some first, ?_⟩
  simpa [Path.sameComponents] using List.find?_some first

/-! A list of entries whose paths are apart is held as it is, in the order of the paths. -/

def Apart (entries : List (Path × α)) : Prop :=
  entries.Pairwise fun first second => first.1.sameComponents second.1 = false

theorem perm_updateEntries
    (fresh : ∀ entry ∈ entries, entry.1.sameComponents path = false) :
    (updateEntries path change entries).Perm ((path, change none) :: entries) := by
  induction entries with
  | nil => exact .refl _
  | cons head entries induction =>
      rcases head with ⟨key, value⟩
      rw [updateEntries]
      split
      · exact .refl _
      · next equal =>
          have same := Path.compare_eq_eq_iff.mp equal
          have different := fresh _ (List.mem_cons_self ..)
          simp [Path.sameComponents, same] at different
      · exact ((induction fun entry member => fresh entry (List.mem_cons_of_mem _ member)).cons
          _).trans (.swap ..)

theorem sorted_ofList (entries : List (Path × α)) : Sorted (ofList entries).entries := by
  rw [ofList]
  induction entries using List.reverseRecOn with
  | nil => exact .nil
  | append_singleton entries entry induction =>
      rw [List.foldl_append]
      exact sorted_updateEntries induction

theorem perm_ofList (apart : Apart entries) : (ofList entries).entries.Perm entries := by
  rw [ofList]
  induction entries using List.reverseRecOn with
  | nil => exact .refl _
  | append_singleton entries entry induction =>
      rcases List.pairwise_append.mp apart with ⟨first, _, last⟩
      have before := induction first
      rw [List.foldl_append]
      refine (perm_updateEntries fun other member => ?_).trans ?_
      · exact last other (before.mem_iff.mp member) entry (List.mem_singleton_self _)
      · exact (before.cons entry).trans (List.perm_append_singleton ..).symm

theorem find?_ofList (apart : Apart entries) {value : α} (member : (path, value) ∈ entries) :
    (ofList entries).find? path = some value :=
  lookup_of_mem (sorted_ofList entries) ((perm_ofList apart).mem_iff.mpr member)

end PathMap

end MemberStubs
