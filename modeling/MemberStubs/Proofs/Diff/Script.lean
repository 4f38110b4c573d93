import Mathlib.Data.List.Basic
import MemberStubs.Diff.Script

/-! Scripts and the lists they are about. A script of one list against another starts from the one
and leads to the other, wherever the middle between them is looked for. -/

namespace MemberStubs.Diff

/-! ## Common ends -/

section

variable [DecidableEq α]

theorem commonPrefixLength_le (first second : List α) :
    commonPrefixLength first second ≤ first.length ∧
      commonPrefixLength first second ≤ second.length := by
  fun_induction commonPrefixLength first second with
  | case1 c first rest induction =>
      simp only [List.length_cons]
      omega
  | case2 => simp
  | case3 => simp

theorem take_commonPrefixLength (first second : List α) :
    first.take (commonPrefixLength first second) =
      second.take (commonPrefixLength first second) := by
  fun_induction commonPrefixLength first second with
  | case1 c first rest induction => rw [List.take_succ_cons, List.take_succ_cons, induction]
  | case2 => rfl
  | case3 => rfl

theorem commonSuffixLength_le (first second : List α) :
    commonSuffixLength first second ≤ first.length ∧
      commonSuffixLength first second ≤ second.length := by
  have bounds := commonPrefixLength_le first.reverse second.reverse
  rwa [List.length_reverse, List.length_reverse] at bounds

theorem drop_commonSuffixLength (first second : List α) :
    first.drop (first.length - commonSuffixLength first second) =
      second.drop (second.length - commonSuffixLength first second) := by
  have same := take_commonPrefixLength first.reverse second.reverse
  rw [List.take_reverse, List.take_reverse] at same
  exact List.reverse_injective same

end

/-! ## Runs -/

theorem Script.old_append (first second : Script α) :
    (first ++ second).old = first.old ++ second.old := by
  rw [old, List.filter_append, List.flatMap_append]
  rfl

theorem Script.new_append (first second : Script α) :
    (first ++ second).new = first.new ++ second.new := by
  rw [new, List.filter_append, List.flatMap_append]
  rfl

theorem eq_of_mem_runOf {kind : RunKind} {values : List α} {run : Run α}
    (member : run ∈ runOf kind values) : run = ⟨kind, values⟩ ∧ values ≠ [] := by
  cases values with
  | nil => cases member
  | cons value values => exact ⟨List.mem_singleton.mp member, List.cons_ne_nil _ _⟩

/-- No run of kept elements is empty. -/
def Script.Keeps (script : Script α) : Prop :=
  ∀ run ∈ script, run.kind = .kept → run.values ≠ []

/-- A script that starts from one list and leads to another. -/
structure Script.Leads (script : Script α) (old new : List α) : Prop where
  starts : script.old = old
  ends : script.new = new
  keeps : script.Keeps

namespace Script.Leads

theorem append {first second : Script α} {old old' new new' : List α}
    (leads : first.Leads old new) (leads' : second.Leads old' new') :
    (first ++ second).Leads (old ++ old') (new ++ new') where
  starts := by rw [old_append, leads.starts, leads'.starts]
  ends := by rw [new_append, leads.ends, leads'.ends]
  keeps := List.forall_mem_append.mpr ⟨leads.keeps, leads'.keeps⟩

theorem keeps_runOf (kind : RunKind) (values : List α) : (runOf kind values).Keeps := by
  intro run member _
  rcases eq_of_mem_runOf member with ⟨rfl, notEmpty⟩
  exact notEmpty

theorem kept (values : List α) : (runOf .kept values).Leads values values := by
  refine ⟨?_, ?_, keeps_runOf _ _⟩ <;> cases values <;> simp [runOf, old, new]

theorem removed (values : List α) : (runOf .removed values).Leads values [] := by
  refine ⟨?_, ?_, keeps_runOf _ _⟩ <;> cases values <;> simp [runOf, old, new]

theorem added (values : List α) : (runOf .added values).Leads [] values := by
  refine ⟨?_, ?_, keeps_runOf _ _⟩ <;> cases values <;> simp [runOf, old, new]

theorem replaced (old new : List α) :
    (runOf .removed old ++ runOf .added new).Leads old new := by
  have leads := (removed old).append (added new)
  rwa [List.append_nil] at leads

end Script.Leads

/-! ## The script of two lists -/

/-- What two lists have in common at their ends stands around what is left of them. -/
theorem take_append_between {old : List α} {front back : Nat} (fits : front + back ≤ old.length) :
    old.take front ++ (old.drop front).take (old.length - front - back) ++
      old.drop (old.length - back) = old := by
  have behind : old.drop (old.length - back) =
      (old.drop front).drop (old.length - front - back) := by
    rw [List.drop_drop]
    congr 1
    omega
  rw [behind, List.append_assoc, List.take_append_drop, List.take_append_drop]

theorem leads_scriptFrom [DecidableEq α] (frontiers : Frontiers) (old new : List α) :
    (scriptFrom frontiers old new).1.Leads old new := by
  fun_induction scriptFrom frontiers old new with
  | case1 frontiers old new front back oldRest newRest inner frontiers' split second first =>
      have middle : inner.Leads oldRest newRest := by
        split at split
        · cases split
          exact .replaced oldRest newRest
        · split at split
          · next between x y _ =>
              split at split
              · next halves =>
                  cases split
                  have leads := (second between x y halves).append
                    (first x y halves (scriptFrom between (oldRest.take x) (newRest.take y)).2)
                  rwa [List.take_append_drop, List.take_append_drop] at leads
              · cases split
                exact .replaced oldRest newRest
          · cases split
            exact .replaced oldRest newRest
      have bounds := commonPrefixLength_le old new
      have bounds' := commonSuffixLength_le (old.drop front) (new.drop front)
      rw [List.length_drop, List.length_drop] at bounds'
      have front_eq : old.take front = new.take front := take_commonPrefixLength old new
      have back_eq : old.drop (old.length - back) = new.drop (new.length - back) := by
        have shared := drop_commonSuffixLength (old.drop front) (new.drop front)
        rw [List.length_drop, List.length_drop, List.drop_drop, List.drop_drop] at shared
        convert shared using 2 <;> omega
      have leads := ((Script.Leads.kept (old.take front)).append middle).append
        (.kept (old.drop (old.length - back)))
      refine ⟨leads.starts.trans (take_append_between (by omega)), leads.ends.trans ?_, leads.keeps⟩
      rw [front_eq, back_eq]
      exact take_append_between (by omega)

theorem leads_shortestScript [DecidableEq α] (old new : List α) :
    (shortestScript old new).Leads old new :=
  leads_scriptFrom {} old new

end MemberStubs.Diff
