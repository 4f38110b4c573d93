import MemberStubs.Proofs.Path.Joining
import MemberStubs.Proofs.Store.Disk

/-! Where spelled paths lead. Dots and repeated slashes can keep a path from leading anywhere, but
they never make it lead elsewhere: two spellings of one path that both lead somewhere lead to one
location. -/

namespace MemberStubs

namespace Disk

open MemberStubs.Path

/-- Dots ask for directories and lead nowhere else. -/
theorem follow?_filter {disk : Disk} {location target : Location} {steps : List String}
    (leads : disk.follow? location steps = some target) :
    disk.follow? location (steps.filter (· ≠ ".")) = some target := by
  fun_induction follow? disk location steps with
  | case1 => simpa [follow?] using leads
  | case2 location later isDirectory induction => simpa using induction leads
  | case3 => cases leads
  | case4 location later isDirectory induction =>
      rw [List.filter_cons_of_pos (by decide), follow?, if_pos isDirectory]
      exact induction leads
  | case5 => cases leads
  | case6 location name later notDot notParent isDirectory induction =>
      rw [List.filter_cons_of_pos (by simpa using notDot), follow?, if_pos isDirectory]
      · exact induction leads
      · assumption
      · assumption
  | case7 => cases leads

theorem filter_steps (path : Path) :
    (steps path).filter (· ≠ ".") =
      (stepsOf path.text.toList).map fun step => String.ofList step.text := by
  have final : ((if path.text.toList.getLast? = some '/' then [['.']] else []).map
      String.ofList).filter (· ≠ ".") = [] := by
    split <;> rfl
  rw [steps, List.map_append, List.filter_append, final, List.append_nil, stepsOf]
  induction pieces path.text.toList with
  | nil => rfl
  | cons piece pieces induction =>
      rw [List.filter_cons, List.filterMap_cons]
      by_cases empty : piece = []
      · subst empty
        exact induction
      · rw [if_pos (by simpa using empty), List.map_cons, List.filter_cons]
        by_cases dot : piece = ['.']
        · subst dot
          exact induction
        · have written : String.ofList piece ≠ "." := by
            rw [ne_eq, ← String.toList_inj, String.toList_ofList]
            exact dot
          have step : ∃ step : Component, step.text = piece ∧
              Component.ofPiece? piece = some step := by
            rw [Component.ofPiece?, if_neg (not_or.mpr ⟨empty, dot⟩)]
            split
            · next parent => exact ⟨.parent, parent.symm, rfl⟩
            · exact ⟨.name piece, rfl, rfl⟩
          rcases step with ⟨step, text, read⟩
          rw [if_pos (by simpa using written), induction, read, List.map_cons, text]

/-- The location of a path without what its spelling adds. -/
theorem follow?_of_locate? {disk : Disk} {path : Path} {location : Location}
    (leads : disk.locate? path = some location) :
    disk.follow? (if path.isAbsolute then [] else disk.current)
      ((stepsOf path.text.toList).map fun step => String.ofList step.text) = some location := by
  rw [locate?] at leads
  split at leads
  · cases leads
  · rw [← filter_steps]
    exact follow?_filter leads

theorem locate?_unique {disk : Disk} {root first second : Path}
    (same : first.components = second.components) {location other : Location}
    (leads : disk.locate? (root.join first) = some location)
    (leads' : disk.locate? (root.join second) = some other) : location = other := by
  have absolute : first.isAbsolute = second.isAbsolute := by
    rw [Bool.eq_iff_iff, ← root_mem_components_iff, ← root_mem_components_iff, same]
  have steps : stepsOf first.text.toList = stepsOf second.text.toList := by
    rw [← filter_components, ← filter_components, same]
  have found := follow?_of_locate? leads
  have found' := follow?_of_locate? leads'
  cases isAbsolute : second.isAbsolute with
  | true =>
      rw [isAbsolute] at absolute
      have whole : root.join first = first := if_pos absolute
      have whole' : root.join second = second := if_pos isAbsolute
      rw [whole, absolute, steps] at found
      rw [whole', isAbsolute] at found'
      exact Option.some.inj (found.symm.trans found')
  | false =>
      rw [isAbsolute] at absolute
      rw [isAbsolute_join absolute, stepsOf_join absolute, steps] at found
      rw [isAbsolute_join isAbsolute, stepsOf_join isAbsolute] at found'
      exact Option.some.inj (found.symm.trans found')

end Disk

end MemberStubs
