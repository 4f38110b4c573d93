import MemberStubs.Path

/-! The order of paths is a linear order of their components: it is lexicographic twice over, in the
components and in the characters of a name. Paths that compare as equal have the same components,
however they are spelled. -/

namespace MemberStubs.Path

open Std

/-- Comparing what a view shows of two values is as lawful as comparing the views. -/
theorem transCmp_view {compared : β → β → Ordering} [TransCmp compared] (view : α → β) :
    TransCmp fun first second => compared (view first) (view second) where
  eq_swap {first second} := @OrientedCmp.eq_swap _ compared _ (view first) (view second)
  isLE_trans {first second third} below above :=
    @TransCmp.isLE_trans _ compared _ (view first) (view second) (view third) below above

namespace Component

theorem compareNames_eq_compareLex :
    compareNames = List.compareLex (compareOn Char.toNat) := by
  funext first second
  induction first generalizing second with
  | nil => cases second <;> rfl
  | cons c first induction =>
      cases second with
      | nil => rfl
      | cons d second => rw [compareNames, List.compareLex_cons_cons, induction]; rfl

def nameText : Component → List Char
  | .name text => text
  | _ => []

theorem compare_eq_compareLex :
    Component.compare = compareLex (compareOn rank)
      fun first second => compareNames first.nameText second.nameText := by
  funext first second
  cases first <;> cases second <;> rfl

instance : LawfulEqCmp (compareOn Char.toNat) where
  eq_of_compare same := Char.toNat_inj.mp (LawfulEqOrd.eq_of_compare same)

instance : TransCmp compareNames := by
  rw [compareNames_eq_compareLex]
  infer_instance

instance : LawfulEqCmp compareNames := by
  rw [compareNames_eq_compareLex]
  infer_instance

instance : TransCmp fun first second : Component =>
    compareNames first.nameText second.nameText := transCmp_view nameText

instance : TransCmp Component.compare := by
  rw [compare_eq_compareLex]
  infer_instance

instance : LawfulEqCmp Component.compare where
  eq_of_compare {first second} same := by
    rw [compare_eq_compareLex, compareLex_eq_eq] at same
    have ranks : first.rank = second.rank := LawfulEqOrd.eq_of_compare same.1
    have names : first.nameText = second.nameText := LawfulEqCmp.eq_of_compare same.2
    cases first <;> cases second <;> simp_all [rank, nameText]

end Component

theorem compareComponents_eq_compareLex :
    compareComponents = List.compareLex Component.compare := by
  funext first second
  induction first generalizing second with
  | nil => cases second <;> rfl
  | cons a first induction =>
      cases second with
      | nil => rfl
      | cons b second => rw [compareComponents, List.compareLex_cons_cons, induction]

instance : TransCmp compareComponents := by
  rw [compareComponents_eq_compareLex]
  infer_instance

instance : LawfulEqCmp compareComponents := by
  rw [compareComponents_eq_compareLex]
  infer_instance

instance : TransCmp Path.compare :=
  transCmp_view components

theorem compare_eq_eq_iff {first second : Path} :
    first.compare second = .eq ↔ first.components = second.components :=
  @LawfulEqCmp.compare_eq_iff_eq _ compareComponents _ _ _

end MemberStubs.Path
