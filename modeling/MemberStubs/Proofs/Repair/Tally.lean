import Mathlib.Data.List.Perm.Basic
import MemberStubs.Proofs.Repair.FileRepair

/-! The repair of a file accounts for every diagnostic once: it is a trigger of one edit, it stands
with one failure, or it is silent, its class owing nothing or having failed before. -/

namespace MemberStubs

/-- What only one of several values with distinct keys contributes. -/
theorem flatMap_of_nodup {values : List α} {key : α → κ} (nodup : (values.map key).Nodup)
    {value : α} (member : value ∈ values) {part : α → List β}
    (others : ∀ other, key other ≠ key value → part other = []) :
    values.flatMap part = part value := by
  induction values with
  | nil => cases member
  | cons first later induction =>
      rcases List.nodup_cons.mp nodup with ⟨fresh, distinct⟩
      rw [List.flatMap_cons]
      rcases List.mem_cons.mp member with rfl | member
      · have nothing : later.flatMap part = [] := by
          apply List.flatMap_eq_nil_iff.mpr
          intro other behind
          apply others
          intro same
          exact fresh (List.mem_map.mpr ⟨other, behind, same⟩)
        rw [nothing, List.append_nil]
      · have different : key first ≠ key value := by
          intro same
          exact fresh (List.mem_map.mpr ⟨value, member, same.symm⟩)
        rw [others first different, induction distinct member, List.nil_append]

namespace FileRepair

variable {program : Program} {style : StubStyle} {file : Path}

section

variable (program : Program) (style : StubStyle) (file : Path)

/-- Whether a diagnostic is neither recorded with an edit nor with a failure: its class owes nothing,
or its class has failed before. -/
def isSilent (sight : Sight) : Bool :=
  match sight with
  | .nothing _ => false
  | .first target =>
      match repairOne program.typeModel style target with
      | .ok none => true
      | _ => false
  | .again target => (program.soleEdit? style target).isNone

def silentOf (diagnostics : List Diagnostic) : List Diagnostic :=
  ((program.sights file diagnostics).filter fun entry => isSilent program style entry.2).map
    Prod.fst

/-- Whether a diagnostic is recorded with an edit. -/
def isTrigger (sight : Sight) : Bool :=
  match sight with
  | .nothing _ => false
  | .first target | .again target => (program.soleEdit? style target).isSome

/-- The triggers of the edit of a class, if it has an edit. -/
def recordedOf (diagnostics : List Diagnostic) (target : ClassTarget) : List DiagnosticRef :=
  if (program.soleEdit? style target).isSome then triggersOf program file diagnostics target.key
  else []

/-- What a diagnostic leaves behind in a list of references. -/
def refIf (recorded : Bool) (diagnostic : Diagnostic) : List DiagnosticRef :=
  if recorded then [diagnostic.toRef] else []

end

theorem silentOf_append (program : Program) (style : StubStyle) (file : Path)
    (diagnostics : List Diagnostic) (diagnostic : Diagnostic) :
    silentOf program style file (diagnostics ++ [diagnostic]) =
      silentOf program style file diagnostics ++
        if isSilent program style (program.sight file diagnostics diagnostic) then [diagnostic]
        else [] := by
  rw [silentOf, Program.sights_append, List.filter_append, List.map_append, silentOf]
  congr 1
  rw [List.filter_cons]
  cases isSilent program style (program.sight file diagnostics diagnostic) <;> rfl

/-- A diagnostic is a trigger, a failure or silent, and only one of these. -/
theorem refIf_cases (program : Program) (style : StubStyle) (diagnostic : Diagnostic)
    (sight : Sight) :
    (refIf (isTrigger program style sight) diagnostic ++
      ((failureOf? program style diagnostic sight).toList.map (·.diagnostic.toRef) ++
        refIf (isSilent program style sight) diagnostic)) = [diagnostic.toRef] := by
  cases sight with
  | nothing error => rfl
  | first target =>
      rcases repairOne_cases program.typeModel style target [] with
        ⟨alone, _⟩ | ⟨_, alone, _⟩ | ⟨edit, alone, _, _⟩ <;>
        simp [isTrigger, failureOf?, isSilent, Program.soleEdit?, alone, refIf, EditSet.classes]
  | again target =>
      cases repaired : program.soleEdit? style target <;>
        simp [isTrigger, failureOf?, isSilent, repaired, refIf]

theorem flatMap_triggers_classesOf (program : Program) (style : StubStyle) (file : Path)
    (diagnostics : List Diagnostic) :
    (classesOf program style file diagnostics).flatMap ClassEdit.triggers =
      (program.firstTargets file diagnostics).flatMap
        (recordedOf program style file diagnostics) := by
  rw [classesOf, List.filterMap_eq_flatMap_toList, List.flatMap_assoc]
  congr 1
  funext target
  rw [editOf?, recordedOf]
  cases program.soleEdit? style target with
  | none => rfl
  | some edit => simp [ClassEdit.withTriggers]

theorem recordedOf_append (program : Program) (style : StubStyle) (file : Path)
    (diagnostics : List Diagnostic) (diagnostic : Diagnostic) (target : ClassTarget) :
    recordedOf program style file (diagnostics ++ [diagnostic]) target =
      recordedOf program style file diagnostics target ++
        recordedOf program style file [diagnostic] target := by
  simp only [recordedOf]
  split
  · rw [triggersOf, List.filter_append, List.map_append]
    rfl
  · rfl

theorem recordedOf_singleton (diagnostic : Diagnostic) (target : ClassTarget) :
    recordedOf program style file [diagnostic] target =
      refIf ((program.soleEdit? style target).isSome &&
        program.locates file target.key diagnostic) diagnostic := by
  rw [recordedOf, triggersOf, List.filter_singleton]
  cases (program.soleEdit? style target).isSome <;>
    cases program.locates file target.key diagnostic <;> rfl

/-- A class that is seen for the first time has no earlier triggers. -/
theorem flatMap_recordedOf_firstTargets_append (program : Program) (style : StubStyle)
    (file : Path) (diagnostics : List Diagnostic) (diagnostic : Diagnostic) :
    (program.firstTargets file (diagnostics ++ [diagnostic])).flatMap
        (recordedOf program style file diagnostics) =
      (program.firstTargets file diagnostics).flatMap
        (recordedOf program style file diagnostics) := by
  rw [Program.firstTargets_append, List.flatMap_append]
  rcases program.sight_cases file diagnostics diagnostic with
    ⟨_, sees, _⟩ | ⟨target, sees, _, fresh⟩ | ⟨_, _, sees, _, _⟩
  · simp [sees, Sight.first?]
  · simp [sees, Sight.first?, recordedOf, triggersOf_of_unseen fresh]
  · simp [sees, Sight.first?]

/-- Of all classes only the one that a diagnostic sees records it. -/
theorem flatMap_recordedOf_singleton (program : Program) (style : StubStyle) (file : Path)
    (diagnostics : List Diagnostic) (diagnostic : Diagnostic) :
    (program.firstTargets file (diagnostics ++ [diagnostic])).flatMap
        (recordedOf program style file [diagnostic]) =
      refIf (isTrigger program style (program.sight file diagnostics diagnostic)) diagnostic := by
  have atClass : ∀ target standing : ClassTarget,
      program.findClassAt file diagnostic.start = .ok target →
      program.firstTarget? file target.key (diagnostics ++ [diagnostic]) = some standing →
      (program.firstTargets file (diagnostics ++ [diagnostic])).flatMap
          (recordedOf program style file [diagnostic]) =
        refIf (program.soleEdit? style standing).isSome diagnostic := by
    intro target standing found stands
    rcases Program.firstTarget?_eq_some_iff.mp stands with ⟨member, keyed⟩
    rw [flatMap_of_nodup (program.nodup_keys_firstTargets file _) member, recordedOf_singleton,
      Program.locates_of_ok found, keyed]
    · simp
    · intro other different
      rw [recordedOf_singleton, Program.locates_of_ok found, ← keyed]
      simp [different.symm, refIf]
  rcases program.sight_cases file diagnostics diagnostic with
    ⟨error, sees, missing⟩ | ⟨target, sees, found, fresh⟩ | ⟨target, seen, sees, found, known⟩
  · rw [sees]
    apply List.flatMap_eq_nil_iff.mpr
    intro target _
    rw [recordedOf_singleton, Program.locates_of_error missing, Bool.and_false]
    rfl
  · rw [sees]
    refine atClass target target found ?_
    rw [Program.firstTarget?_append, fresh, Program.targetOf?_of_ok found, if_pos rfl]
    rfl
  · rw [sees]
    refine atClass target seen found ?_
    rw [Program.firstTarget?_append, known]
    rfl

theorem perm_triggers_append (program : Program) (style : StubStyle) (file : Path)
    (diagnostics : List Diagnostic) (diagnostic : Diagnostic) :
    ((classesOf program style file (diagnostics ++ [diagnostic])).flatMap ClassEdit.triggers).Perm
      ((classesOf program style file diagnostics).flatMap ClassEdit.triggers ++
        refIf (isTrigger program style (program.sight file diagnostics diagnostic))
          diagnostic) := by
  rw [flatMap_triggers_classesOf, flatMap_triggers_classesOf,
    funext (recordedOf_append program style file diagnostics diagnostic)]
  refine (List.flatMap_append_perm ..).symm.trans (List.Perm.of_eq ?_)
  rw [flatMap_recordedOf_firstTargets_append, flatMap_recordedOf_singleton]

private theorem perm_append_parts [DecidableEq α] {whole first first' second third : List α}
    {one two three : List α} (parts : whole.Perm (first ++ (second ++ third)))
    (grown : first'.Perm (first ++ one)) :
    (whole ++ (one ++ (two ++ three))).Perm (first' ++ ((second ++ two) ++ (third ++ three))) := by
  rw [List.perm_iff_count]
  intro value
  have before := parts.count_eq value
  have after := grown.count_eq value
  simp only [List.count_append] at before after ⊢
  omega

/-- Every diagnostic is a trigger, or it stands with a failure, or it is silent. -/
theorem perm_account (program : Program) (style : StubStyle) (file : Path)
    (diagnostics : List Diagnostic) :
    (diagnostics.map Diagnostic.toRef).Perm
      ((classesOf program style file diagnostics).flatMap ClassEdit.triggers ++
        ((failuresOf program style file diagnostics).map (·.diagnostic.toRef) ++
          (silentOf program style file diagnostics).map Diagnostic.toRef)) := by
  induction diagnostics using List.reverseRecOn with
  | nil => exact List.Perm.nil
  | append_singleton diagnostics diagnostic induction =>
      have grown := perm_triggers_append program style file diagnostics diagnostic
      rw [List.map_append, failuresOf_append, silentOf_append, List.map_append, List.map_append,
        List.map_singleton, ← refIf_cases program style diagnostic
          (program.sight file diagnostics diagnostic)]
      have silent : (if isSilent program style (program.sight file diagnostics diagnostic) then
          [diagnostic] else []).map Diagnostic.toRef =
            refIf (isSilent program style (program.sight file diagnostics diagnostic))
              diagnostic := by
        cases isSilent program style (program.sight file diagnostics diagnostic) <;> rfl
      rw [silent]
      exact perm_append_parts induction grown

end FileRepair

end MemberStubs
