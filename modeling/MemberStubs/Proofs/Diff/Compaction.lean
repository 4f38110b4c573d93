import MemberStubs.Diff.Compaction
import MemberStubs.Proofs.Diff.Script

/-! Sliding runs changes the script, but neither the list that it starts from nor the one that it
leads to. -/

namespace MemberStubs.Diff

/-! ## Scripts between the same lists -/

/-- The second script does what the first one does. -/
structure Script.Becomes (first second : Script α) : Prop where
  old : second.old = first.old
  new : second.new = first.new
  keeps : first.Keeps → second.Keeps

theorem Script.Leads.becomes {first second : Script α} {old new : List α}
    (leads : first.Leads old new) (becomes : first.Becomes second) : second.Leads old new :=
  ⟨becomes.old.trans leads.starts, becomes.new.trans leads.ends, becomes.keeps leads.keeps⟩

namespace Script.Becomes

variable {first second third : Script α}

theorem refl (script : Script α) : script.Becomes script :=
  ⟨rfl, rfl, id⟩

theorem trans (becomes : first.Becomes second) (becomes' : second.Becomes third) :
    first.Becomes third :=
  ⟨becomes'.old.trans becomes.old, becomes'.new.trans becomes.new,
    fun keeps => becomes'.keeps (becomes.keeps keeps)⟩

theorem append {first' second' : Script α} (becomes : first.Becomes first')
    (becomes' : second.Becomes second') : (first ++ second).Becomes (first' ++ second') where
  old := by rw [old_append, old_append, becomes.old, becomes'.old]
  new := by rw [new_append, new_append, becomes.new, becomes'.new]
  keeps keeps := by
    rcases List.forall_mem_append.mp keeps with ⟨front, behind⟩
    exact List.forall_mem_append.mpr ⟨becomes.keeps front, becomes'.keeps behind⟩

/-- Runs between others. -/
theorem within (becomes : first.Becomes second) (front behind : Script α) :
    (front ++ (first ++ behind)).Becomes (front ++ (second ++ behind)) :=
  (refl front).append (becomes.append (refl behind))

end Script.Becomes

/-! ## Single slides -/

section

variable {kind : RunKind}

theorem Script.old_cons (run : Run α) (later : Script α) :
    Script.old (run :: later) = (if run.kind = .added then [] else run.values) ++ later.old := by
  cases shape : run.kind <;> simp [old, shape]

theorem Script.new_cons (run : Run α) (later : Script α) :
    Script.new (run :: later) = (if run.kind = .removed then [] else run.values) ++ later.new := by
  cases shape : run.kind <;> simp [new, shape]

theorem becomes_keepBefore {values : List α} (notEmpty : values ≠ []) (script : Script α) :
    Script.Becomes (⟨.kept, values⟩ :: script) (keepBefore values script) := by
  unfold keepBefore
  split
  · next following later =>
      refine ⟨?_, ?_, fun keeps => ?_⟩
      · simp [Script.old_cons]
      · simp [Script.new_cons]
      · rcases List.forall_mem_cons.mp keeps with ⟨_, keeps⟩
        rcases List.forall_mem_cons.mp keeps with ⟨_, keeps⟩
        exact List.forall_mem_cons.mpr ⟨fun _ => by simp [notEmpty], keeps⟩
  · exact .refl _

/-- What a run shares with the end of the kept run before it can be kept behind it instead. -/
theorem becomes_slid (changes : kind ≠ .kept) (stays init : List α) {tail : List α}
    (notEmpty : tail ≠ []) :
    Script.Becomes [⟨.kept, stays ++ tail⟩, ⟨kind, init ++ tail⟩]
      (runOf .kept stays ++ [⟨kind, tail ++ init⟩, ⟨.kept, tail⟩]) where
  old := by
    rw [Script.old_append, (Script.Leads.kept stays).starts]
    cases kind <;> simp [Script.old]
  new := by
    rw [Script.new_append, (Script.Leads.kept stays).ends]
    cases kind <;> simp [Script.new]
  keeps _ := by
    refine List.forall_mem_append.mpr ⟨(Script.Leads.kept stays).keeps, ?_⟩
    simp [changes, notEmpty]

theorem becomes_swapped {first second : Run α} (different : first.kind ≠ second.kind)
    (changes : first.kind ≠ .kept) (changes' : second.kind ≠ .kept) :
    Script.Becomes [first, second] [second, first] where
  old := by
    cases shape : first.kind <;> cases shape' : second.kind <;>
      simp_all [Script.old]
  new := by
    cases shape : first.kind <;> cases shape' : second.kind <;>
      simp_all [Script.new]
  keeps keeps := by simp_all [Script.Keeps]

theorem becomes_merged (changes : kind ≠ .kept) (first second : List α) :
    Script.Becomes [⟨kind, first⟩, ⟨kind, second⟩] [⟨kind, first ++ second⟩] where
  old := by cases kind <;> simp [Script.old]
  new := by cases kind <;> simp [Script.new]
  keeps _ := by simp [Script.Keeps, changes]

theorem becomes_dropped (run : Run α) : Script.Becomes [⟨.kept, []⟩, run] [run] where
  old := by simp [Script.old_cons]
  new := by simp [Script.new_cons]
  keeps keeps := (List.forall_mem_cons.mp keeps).2

end

/-! ## Sliding up -/

def Cursor.script (cursor : Cursor α) : Script α :=
  cursor.before.reverse ++ ([cursor.current] ++ cursor.after)

theorem reverse_runOf (kind : RunKind) (values : List α) :
    (runOf kind values).reverse = runOf kind values := by
  unfold runOf
  split <;> rfl

section

variable [DecidableEq α]

theorem kind_slideUp (before : Script α) (current : Run α) (after : Script α) :
    (slideUp before current after).current.kind = current.kind := by
  fun_induction slideUp before current after <;> first | rfl | assumption

theorem becomes_slideUp (before : Script α) (current : Run α) (after : Script α)
    (changes : current.kind ≠ .kept) :
    (Cursor.mk before current after).script.Becomes (slideUp before current after).script := by
  have upward (previous current : Run α) (earlier after : Script α) :
      (Cursor.mk (previous :: earlier) current after).script =
        earlier.reverse ++ ([previous, current] ++ after) := by
    simp [Cursor.script]
  fun_induction slideUp before current after with
  | case1 current after => exact .refl _
  | case2 current after previous earlier kept shared slides stays tail moved induction =>
      have facing : tail = previous.values.drop (previous.values.length - shared) :=
        drop_commonSuffixLength current.values previous.values
      have bounds : shared ≤ current.values.length ∧ shared ≤ previous.values.length :=
        commonSuffixLength_le current.values previous.values
      have notEmpty : tail ≠ [] := by
        refine List.ne_nil_of_length_pos ?_
        rw [List.length_drop]
        omega
      have before : previous = ⟨.kept, stays ++ tail⟩ := by
        rw [facing, List.take_append_drop, ← kept]
      have here : current = ⟨current.kind,
          current.values.take (current.values.length - shared) ++ tail⟩ := by
        rw [List.take_append_drop]
      have slid := (becomes_slid changes stays
        (current.values.take (current.values.length - shared)) notEmpty).within earlier.reverse after
      rw [← before, ← here] at slid
      refine .trans (upward .. ▸ slid) (.trans ?_ (induction changes))
      have following := (Script.Becomes.refl (earlier.reverse ++ (runOf .kept stays ++
        [⟨current.kind, moved⟩]))).append (becomes_keepBefore notEmpty after)
      simpa [Cursor.script, reverse_runOf] using following
  | case3 current after previous earlier kept shared stuck empty induction =>
      have before : previous = ⟨.kept, []⟩ := by
        rw [← kept, ← List.isEmpty_iff.mp empty]
      refine .trans ?_ (induction changes)
      rw [upward, before]
      exact (becomes_dropped current).within earlier.reverse after
  | case4 current after previous earlier kept shared stuck notEmpty => exact .refl _
  | case5 current after previous earlier changes' same induction =>
      have before : previous = ⟨current.kind, previous.values⟩ := by rw [← same]
      have merged := (becomes_merged changes previous.values current.values).within
        earlier.reverse after
      rw [← before] at merged
      exact .trans (upward .. ▸ merged) (induction changes)
  | case6 current after previous earlier changes' different induction =>
      refine .trans ?_ (induction changes)
      rw [upward]
      have swapped := (becomes_swapped different changes' changes).within earlier.reverse after
      simpa [Cursor.script] using swapped

end

/-! ## Scripts from their ends -/

/-- A script read from its end. -/
def Script.mirrored (script : Script α) : Script α :=
  readBack script.reverse

namespace Script

theorem mirrored_cons (run : Run α) (later : Script α) :
    mirrored (run :: later) = later.mirrored ++ [⟨run.kind, run.values.reverse⟩] := by
  simp [mirrored, readBack]

theorem old_mirrored (script : Script α) : script.mirrored.old = script.old.reverse := by
  induction script with
  | nil => rfl
  | cons run later induction =>
      rw [mirrored_cons, old_append, induction, old_cons run later, List.reverse_append]
      cases run.kind <;> simp [old]

theorem new_mirrored (script : Script α) : script.mirrored.new = script.new.reverse := by
  induction script with
  | nil => rfl
  | cons run later induction =>
      rw [mirrored_cons, new_append, induction, new_cons run later, List.reverse_append]
      cases run.kind <;> simp [new]

theorem keeps_mirrored_iff {script : Script α} : script.mirrored.Keeps ↔ script.Keeps := by
  simp [Keeps, mirrored, readBack]

theorem Becomes.of_mirrored {first second : Script α}
    (becomes : first.mirrored.Becomes second.mirrored) : first.Becomes second where
  old := by
    have same := becomes.old
    rwa [old_mirrored, old_mirrored, List.reverse_inj] at same
  new := by
    have same := becomes.new
    rwa [new_mirrored, new_mirrored, List.reverse_inj] at same
  keeps keeps := keeps_mirrored_iff.mp (becomes.keeps (keeps_mirrored_iff.mpr keeps))

end Script

theorem readBack_readBack (script : Script α) : readBack (readBack script) = script := by
  rw [readBack, readBack, List.map_map]
  refine List.map_id'' (fun run => ?_) script
  simp

namespace Cursor

theorem script_fromEnd (cursor : Cursor α) : cursor.fromEnd.script = cursor.script.mirrored := by
  simp [script, fromEnd, Script.mirrored, readBack]

theorem fromEnd_fromEnd (cursor : Cursor α) : cursor.fromEnd.fromEnd = cursor := by
  simp [fromEnd, readBack_readBack]

end Cursor

/-! ## All runs of a kind -/

section

variable [DecidableEq α]

theorem becomes_slideDown (cursor : Cursor α) (changes : cursor.current.kind ≠ .kept) :
    cursor.script.Becomes (slideDown cursor).script := by
  have slid := becomes_slideUp cursor.fromEnd.before cursor.fromEnd.current cursor.fromEnd.after
    changes
  refine .of_mirrored ?_
  rw [← Cursor.script_fromEnd, ← Cursor.script_fromEnd, slideDown, Cursor.fromEnd_fromEnd]
  exact slid

theorem becomes_slideFrom {kind : RunKind} (changes : kind ≠ .kept) (remaining : Nat)
    (before script : Script α) :
    Script.Becomes (before.reverse ++ script) (slideFrom kind remaining before script) := by
  fun_induction slideFrom kind remaining before script with
  | case1 before script => exact .refl _
  | case2 remaining before =>
      rw [List.append_nil]
      exact .refl _
  | case3 remaining before run later same cursor induction =>
      have up := becomes_slideUp before run later (same ▸ changes)
      have kind_eq := (kind_slideUp before run later).trans same
      have down := becomes_slideDown (slideUp before run later) (kind_eq ▸ changes)
      refine .trans up (.trans down ?_)
      simpa [Cursor.script] using induction
  | case4 remaining before run later different induction =>
      simpa using induction

theorem becomes_compact (script : Script α) : script.Becomes (compact script) :=
  .trans (becomes_slideFrom (by decide) _ [] script) (becomes_slideFrom (by decide) _ [] _)

theorem leads_compactScript (old new : List α) : (compactScript old new).Leads old new :=
  (leads_shortestScript old new).becomes (becomes_compact _)

end

end MemberStubs.Diff
