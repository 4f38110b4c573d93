import Mathlib.Data.List.Basic
import MemberStubs.Proofs.Repair.ClassRepair
import MemberStubs.Proofs.Repair.Sights
import MemberStubs.Repair.Batch

/-! What the repair of one file amounts to. Every class is repaired as it was first seen, and what
that repair answers alone decides what becomes of all the diagnostics that see the class. -/

namespace MemberStubs

/-- Within one file a class is known by where it starts. -/
theorem ClassKey.start_eq_iff {first second : ClassKey}
    (file : first.file = second.file) : first.start = second.start ↔ first = second := by
  rcases first with ⟨_, _⟩
  rcases second with ⟨_, _⟩
  simp only at file
  simp [file]

/-- The edit for a class that is repaired alone. -/
def Program.soleEdit? (program : Program) (style : StubStyle) (target : ClassTarget) :
    Option ClassEdit :=
  match repairOne program.typeModel style target with
  | .ok (some edits) => edits.classes.head?
  | _ => none

namespace FileRepair

section

variable (program : Program) (style : StubStyle) (file : Path)

def triggersOf (diagnostics : List Diagnostic) (key : ClassKey) : List DiagnosticRef :=
  (diagnostics.filter (program.locates file key)).map Diagnostic.toRef

def editOf? (diagnostics : List Diagnostic) (target : ClassTarget) : Option ClassEdit :=
  (program.soleEdit? style target).map fun edit =>
    edit.withTriggers (triggersOf program file diagnostics target.key)

def classesOf (diagnostics : List Diagnostic) : List ClassEdit :=
  (program.firstTargets file diagnostics).filterMap (editOf? program style file diagnostics)

def failureOf? (diagnostic : Diagnostic) (sight : Sight) : Option ClassFailure :=
  match sight with
  | .nothing error => some ⟨diagnostic, none, error⟩
  | .first target =>
      match repairOne program.typeModel style target with
      | .error error => some ⟨diagnostic, target.name, error⟩
      | .ok _ => none
  | .again _ => none

def failuresOf (diagnostics : List Diagnostic) : List ClassFailure :=
  (program.sights file diagnostics).filterMap fun entry => failureOf? program style entry.1 entry.2

/-- What a repair holds after some diagnostics. -/
structure Accounts (diagnostics : List Diagnostic) (repair : FileRepair) : Prop where
  classes : repair.classes = classesOf program style file diagnostics
  failures : repair.failures = failuresOf program style file diagnostics
  settled : ∀ start, start ∈ repair.settled ↔
    (program.firstTarget? file ⟨file, start⟩ diagnostics).isSome = true

end

variable {program : Program} {style : StubStyle} {file : Path} {diagnostics : List Diagnostic}

theorem key_of_soleEdit? {target : ClassTarget} {edit : ClassEdit}
    (repaired : program.soleEdit? style target = some edit) : edit.key = target.key := by
  rcases repairOne_cases program.typeModel style target [] with
    ⟨answer, _⟩ | ⟨_, answer, _⟩ | ⟨sole, answer, keyed, _⟩
  · simp [Program.soleEdit?, answer] at repaired
  · simp [Program.soleEdit?, answer] at repaired
  · simp only [Program.soleEdit?, answer, EditSet.classes, List.flatMap_cons, List.flatMap_nil,
      List.append_nil, List.head?_cons, Option.some.injEq] at repaired
    rw [← repaired, keyed]

theorem key_of_editOf? {target : ClassTarget} {edit : ClassEdit}
    (repaired : editOf? program style file diagnostics target = some edit) :
    edit.key = target.key := by
  rcases Option.map_eq_some_iff.mp repaired with ⟨sole, answer, rfl⟩
  have keyed := key_of_soleEdit? answer
  exact keyed

theorem file_of_mem_firstTargets {target : ClassTarget}
    (member : target ∈ program.firstTargets file diagnostics) : target.key.file = file := by
  rcases Program.exists_of_mem_firstTargets member with ⟨_, _, found⟩
  exact Program.file_of_findClassAt found

/-! ## One more diagnostic

It adds a trigger, a failure, an edit, or nothing. -/

theorem triggersOf_append (program : Program) (file : Path) (diagnostics : List Diagnostic)
    (diagnostic : Diagnostic) (key : ClassKey) :
    triggersOf program file (diagnostics ++ [diagnostic]) key =
      triggersOf program file diagnostics key ++
        if program.locates file key diagnostic then [diagnostic.toRef] else [] := by
  rw [triggersOf, List.filter_append, List.map_append, triggersOf]
  congr 1
  rw [List.filter_cons]
  cases program.locates file key diagnostic <;> rfl

theorem triggersOf_of_unseen {key : ClassKey}
    (unseen : program.firstTarget? file key diagnostics = none) :
    triggersOf program file diagnostics key = [] := by
  rw [triggersOf, List.map_eq_nil_iff, List.filter_eq_nil_iff]
  intro diagnostic given located
  have seen := Program.firstTarget?_isSome_iff.mpr ⟨diagnostic, given, located⟩
  rw [unseen] at seen
  cases seen

theorem failuresOf_append (program : Program) (style : StubStyle) (file : Path)
    (diagnostics : List Diagnostic) (diagnostic : Diagnostic) :
    failuresOf program style file (diagnostics ++ [diagnostic]) =
      failuresOf program style file diagnostics ++
        (failureOf? program style diagnostic
          (program.sight file diagnostics diagnostic)).toList := by
  rw [failuresOf, Program.sights_append, List.filterMap_append, failuresOf]
  congr 1

/-- Classes at which a diagnostic does not point keep their edits. -/
theorem filterMap_editOf?_append {diagnostic : Diagnostic} {targets : List ClassTarget}
    (apart : ∀ target ∈ targets, program.locates file target.key diagnostic = false) :
    targets.filterMap (editOf? program style file (diagnostics ++ [diagnostic])) =
      targets.filterMap (editOf? program style file diagnostics) := by
  apply List.filterMap_congr
  intro target member
  rw [editOf?, editOf?, triggersOf_append, apart target member]
  simp

/-- The edit of a class at which a diagnostic points takes it as a trigger. -/
theorem map_addTrigger_classesOf {diagnostic : Diagnostic} {target : ClassTarget}
    (found : program.findClassAt file diagnostic.start = .ok target) :
    ((classesOf program style file diagnostics).map fun edit =>
        if edit.key.start = target.key.start then
          { edit with triggers := edit.triggers ++ [diagnostic.toRef] }
        else edit) =
      (program.firstTargets file diagnostics).filterMap
        (editOf? program style file (diagnostics ++ [diagnostic])) := by
  rw [classesOf, List.map_filterMap]
  apply List.filterMap_congr
  intro other member
  rw [editOf?, editOf?, triggersOf_append, Program.locates_of_ok found]
  cases repaired : program.soleEdit? style other with
  | none => rfl
  | some edit =>
      have keyed := key_of_soleEdit? repaired
      have oneFile : target.key.file = edit.key.file := by
        rw [Program.file_of_findClassAt found, keyed, file_of_mem_firstTargets member]
      have starts : edit.key.start = target.key.start ↔ target.key = other.key := by
        rw [eq_comm, ClassKey.start_eq_iff oneFile, keyed]
      simp only [Option.map_some, ClassEdit.withTriggers, starts]
      by_cases same : target.key = other.key <;> simp [same]

theorem accounts_nil : Accounts program style file [] {} :=
  ⟨rfl, rfl, fun start => by simp [Program.firstTarget?]⟩

namespace Accounts

variable {repair : FileRepair} {diagnostic : Diagnostic} {target : ClassTarget}

theorem settled_iff (accounts : Accounts program style file diagnostics repair)
    (inFile : target.key.file = file) :
    repair.settled.contains target.key.start =
      (program.firstTarget? file target.key diagnostics).isSome := by
  rw [Bool.eq_iff_iff, List.contains_iff_mem, accounts.settled, ← inFile]

theorem add_nothing (accounts : Accounts program style file diagnostics repair)
    {error : RepairError} (missing : program.findClassAt file diagnostic.start = .error error)
    (sees : program.sight file diagnostics diagnostic = .nothing error) :
    Accounts program style file (diagnostics ++ [diagnostic])
      (FileRepair.add program style file repair diagnostic) := by
  have added : FileRepair.add program style file repair diagnostic =
      repair.addFailure ⟨diagnostic, none, error⟩ := by
    rw [FileRepair.add, missing]
  rw [added]
  refine ⟨?_, ?_, fun start => ?_⟩
  · rw [addFailure, accounts.classes, classesOf, classesOf, Program.firstTargets_append, sees,
      Sight.first?, Option.toList_none, List.append_nil,
      filterMap_editOf?_append fun _ _ => Program.locates_of_error missing _]
  · rw [addFailure, accounts.failures, failuresOf_append, sees]
    rfl
  · rw [Program.isSome_firstTarget?_append, Program.locates_of_error missing, Bool.or_false]
    exact accounts.settled start

theorem add_again (accounts : Accounts program style file diagnostics repair)
    {seen : ClassTarget} (found : program.findClassAt file diagnostic.start = .ok target)
    (sees : program.sight file diagnostics diagnostic = .again seen)
    (known : program.firstTarget? file target.key diagnostics = some seen) :
    Accounts program style file (diagnostics ++ [diagnostic])
      (FileRepair.add program style file repair diagnostic) := by
  have settled := accounts.settled_iff (Program.file_of_findClassAt found)
  rw [known, Option.isSome_some] at settled
  rw [FileRepair.add, found]
  simp only [settled, if_true]
  refine ⟨?_, ?_, fun start => ?_⟩
  · rw [addTrigger, accounts.classes, map_addTrigger_classesOf found, classesOf,
      Program.firstTargets_append, sees, Sight.first?, Option.toList_none, List.append_nil]
  · rw [addTrigger, accounts.failures, failuresOf_append, sees]
    exact (List.append_nil _).symm
  · rw [Program.isSome_firstTarget?_append, Program.locates_of_ok found]
    rw [addTrigger, accounts.settled, Bool.or_eq_true, iff_self_or, decide_eq_true_eq]
    intro same
    rw [← same, known]
    rfl

theorem add_first (accounts : Accounts program style file diagnostics repair)
    (found : program.findClassAt file diagnostic.start = .ok target)
    (sees : program.sight file diagnostics diagnostic = .first target)
    (fresh : program.firstTarget? file target.key diagnostics = none) :
    Accounts program style file (diagnostics ++ [diagnostic])
      (FileRepair.add program style file repair diagnostic) := by
  have inFile := Program.file_of_findClassAt found
  have unsettled := accounts.settled_iff inFile
  rw [fresh, Option.isSome_none] at unsettled
  have nowSettled : ∀ start, start ∈ target.key.start :: repair.settled ↔
      (program.firstTarget? file ⟨file, start⟩ (diagnostics ++ [diagnostic])).isSome = true := by
    intro start
    have same : target.key = ⟨file, start⟩ ↔ start = target.key.start := by
      rw [← ClassKey.start_eq_iff inFile]
      exact eq_comm
    rw [Program.isSome_firstTarget?_append, Program.locates_of_ok found, List.mem_cons, accounts.settled,
      Bool.or_eq_true, decide_eq_true_eq, same, or_comm]
  have classes : classesOf program style file (diagnostics ++ [diagnostic]) =
      repair.classes ++
        ((program.soleEdit? style target).map (·.withTriggers [diagnostic.toRef])).toList := by
    have others : ∀ other ∈ program.firstTargets file diagnostics,
        program.locates file other.key diagnostic = false := by
      intro other member
      rw [Program.locates_of_ok found, decide_eq_false_iff_not]
      intro same
      rw [same, Program.firstTarget?_eq_some_iff.mpr ⟨member, rfl⟩] at fresh
      cases fresh
    have triggers : triggersOf program file (diagnostics ++ [diagnostic]) target.key =
        [diagnostic.toRef] := by
      rw [triggersOf_append, triggersOf_of_unseen fresh, Program.locates_of_ok found]
      simp
    rw [classesOf, Program.firstTargets_append, sees, List.filterMap_append,
      filterMap_editOf?_append others, accounts.classes, classesOf]
    congr 1
    rw [← triggers]
    rfl
  have failures : failuresOf program style file (diagnostics ++ [diagnostic]) =
      repair.failures ++ (failureOf? program style diagnostic (.first target)).toList := by
    rw [failuresOf_append, sees, accounts.failures]
  rw [FileRepair.add, found]
  simp only [unsettled, Bool.false_eq_true, if_false]
  rw [addClass]
  rcases repairOne_cases program.typeModel style target [diagnostic.toRef] with
    ⟨alone, within⟩ | ⟨error, alone, within⟩ | ⟨edit, alone, _, within⟩
  · rw [within]
    refine ⟨?_, ?_, nowSettled⟩
    · rw [classes]
      simp [Program.soleEdit?, alone, settle]
    · rw [failures]
      simp [failureOf?, alone, settle]
  · rw [within]
    refine ⟨?_, ?_, nowSettled⟩
    · rw [classes]
      simp [Program.soleEdit?, alone, settle, addFailure]
    · rw [failures]
      simp [failureOf?, alone, settle, addFailure]
  · rw [within]
    refine ⟨?_, ?_, nowSettled⟩
    · rw [classes]
      simp [Program.soleEdit?, alone, EditSet.classes]
    · rw [failures]
      simp [failureOf?, alone, settle]

theorem add (accounts : Accounts program style file diagnostics repair)
    (diagnostic : Diagnostic) :
    Accounts program style file (diagnostics ++ [diagnostic])
      (FileRepair.add program style file repair diagnostic) := by
  rcases program.sight_cases file diagnostics diagnostic with
    ⟨_, sees, missing⟩ | ⟨_, sees, found, fresh⟩ | ⟨_, _, sees, found, known⟩
  · exact accounts.add_nothing missing sees
  · exact accounts.add_first found sees fresh
  · exact accounts.add_again found sees known

end Accounts

theorem accounts_repairFile (program : Program) (style : StubStyle) (file : Path)
    (diagnostics : List Diagnostic) :
    Accounts program style file diagnostics (repairFile program style file diagnostics) := by
  induction diagnostics using List.reverseRecOn with
  | nil => exact accounts_nil
  | append_singleton diagnostics diagnostic induction =>
      rw [repairFile, List.foldl_append]
      exact induction.add diagnostic

theorem nodup_keys_classesOf (program : Program) (style : StubStyle) (file : Path)
    (diagnostics : List Diagnostic) :
    ((classesOf program style file diagnostics).map ClassEdit.key).Nodup := by
  have keys : ∀ targets : List ClassTarget,
      ((targets.filterMap (editOf? program style file diagnostics)).map ClassEdit.key).Sublist
        (targets.map ClassTarget.key) := by
    intro targets
    induction targets with
    | nil => exact List.Sublist.refl _
    | cons target targets induction =>
        rw [List.filterMap_cons]
        cases repaired : editOf? program style file diagnostics target with
        | none => exact induction.cons _
        | some edit =>
            rw [List.map_cons, List.map_cons, key_of_editOf? repaired]
            exact induction.cons_cons _
  exact (keys _).nodup (program.nodup_keys_firstTargets file diagnostics)

end FileRepair

end MemberStubs
