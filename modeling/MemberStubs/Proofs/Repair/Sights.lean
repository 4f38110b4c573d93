import Mathlib.Data.List.Induction
import MemberStubs.Repair.Program

/-! How the diagnostics of one file meet its classes. A diagnostic sees no class, or it is the first
one to see a class, or another one has seen that class before. Two targets are one class if they have
one key, and what was seen first stands for the class from then on. -/

namespace MemberStubs

inductive Sight where
  | nothing (error : RepairError)
  | first (target : ClassTarget)
  /-- The target is the one that was seen first. -/
  | again (target : ClassTarget)
  deriving DecidableEq, Repr

def Sight.first? : Sight → Option ClassTarget
  | .nothing _ => none
  | .first target => some target
  | .again _ => none

theorem Program.file_of_findClassAt {program : Program} {file : Path} {position : UInt64}
    {target : ClassTarget} (found : program.findClassAt file position = .ok target) :
    target.key.file = file := by
  rw [findClassAt] at found
  cases located : program.declAtName? file position with
  | none => simp [located] at found
  | some decl =>
      simp only [located, Except.ok.injEq] at found
      rw [← found]
      rfl

namespace Program

variable (program : Program) (file : Path)

/-- The class with a given key, if a diagnostic points at it. -/
def targetOf? (key : ClassKey) (diagnostic : Diagnostic) : Option ClassTarget :=
  (program.findClassAt file diagnostic.start).toOption.filter (·.key = key)

def locates (key : ClassKey) (diagnostic : Diagnostic) : Bool :=
  (program.targetOf? file key diagnostic).isSome

def firstTarget? (key : ClassKey) (diagnostics : List Diagnostic) : Option ClassTarget :=
  diagnostics.findSome? (program.targetOf? file key)

def sight (earlier : List Diagnostic) (diagnostic : Diagnostic) : Sight :=
  match program.findClassAt file diagnostic.start with
  | .error error => .nothing error
  | .ok target =>
      match program.firstTarget? file target.key earlier with
      | none => .first target
      | some first => .again first

def sightsFrom (earlier : List Diagnostic) : List Diagnostic → List (Diagnostic × Sight)
  | [] => []
  | diagnostic :: later =>
      (diagnostic, program.sight file earlier diagnostic) ::
        sightsFrom (earlier ++ [diagnostic]) later

/-- Every diagnostic with what it sees. -/
def sights (diagnostics : List Diagnostic) : List (Diagnostic × Sight) :=
  program.sightsFrom file [] diagnostics

/-- The classes in the order in which they are first seen. -/
def firstTargets (diagnostics : List Diagnostic) : List ClassTarget :=
  (program.sights file diagnostics).filterMap fun entry => Sight.first? entry.2

/-! ## One more diagnostic -/

theorem sightsFrom_append (earlier diagnostics : List Diagnostic) (diagnostic : Diagnostic) :
    program.sightsFrom file earlier (diagnostics ++ [diagnostic]) =
      program.sightsFrom file earlier diagnostics ++
        [(diagnostic, program.sight file (earlier ++ diagnostics) diagnostic)] := by
  induction diagnostics generalizing earlier with
  | nil => simp [sightsFrom]
  | cons first later induction =>
      rw [List.cons_append, sightsFrom, induction, sightsFrom, List.append_assoc]
      rfl

theorem sights_append (diagnostics : List Diagnostic) (diagnostic : Diagnostic) :
    program.sights file (diagnostics ++ [diagnostic]) =
      program.sights file diagnostics ++
        [(diagnostic, program.sight file diagnostics diagnostic)] :=
  program.sightsFrom_append file [] diagnostics diagnostic

theorem firstTargets_append (diagnostics : List Diagnostic) (diagnostic : Diagnostic) :
    program.firstTargets file (diagnostics ++ [diagnostic]) =
      program.firstTargets file diagnostics ++
        (Sight.first? (program.sight file diagnostics diagnostic)).toList := by
  rw [firstTargets, sights_append, List.filterMap_append, firstTargets]
  congr 1

theorem firstTarget?_append (key : ClassKey) (diagnostics : List Diagnostic)
    (diagnostic : Diagnostic) :
    program.firstTarget? file key (diagnostics ++ [diagnostic]) =
      (program.firstTarget? file key diagnostics).or (program.targetOf? file key diagnostic) := by
  rw [firstTarget?, List.findSome?_append, List.findSome?_singleton]
  rfl

theorem isSome_firstTarget?_append (key : ClassKey) (diagnostics : List Diagnostic)
    (diagnostic : Diagnostic) :
    (program.firstTarget? file key (diagnostics ++ [diagnostic])).isSome =
      ((program.firstTarget? file key diagnostics).isSome ||
        program.locates file key diagnostic) := by
  rw [firstTarget?_append, Option.isSome_or]
  rfl

variable {program file} {diagnostics : List Diagnostic} {diagnostic : Diagnostic}

theorem targetOf?_of_error {error : RepairError}
    (missing : program.findClassAt file diagnostic.start = .error error) (key : ClassKey) :
    program.targetOf? file key diagnostic = none := by
  rw [targetOf?, missing]
  rfl

theorem targetOf?_of_ok {target : ClassTarget}
    (found : program.findClassAt file diagnostic.start = .ok target) (key : ClassKey) :
    program.targetOf? file key diagnostic = if target.key = key then some target else none := by
  rw [targetOf?, found]
  simp [Except.toOption, Option.filter]

theorem locates_of_error {error : RepairError}
    (missing : program.findClassAt file diagnostic.start = .error error) (key : ClassKey) :
    program.locates file key diagnostic = false := by
  rw [locates, targetOf?_of_error missing]
  rfl

theorem locates_of_ok {target : ClassTarget}
    (found : program.findClassAt file diagnostic.start = .ok target) (key : ClassKey) :
    program.locates file key diagnostic = decide (target.key = key) := by
  rw [locates, targetOf?_of_ok found]
  by_cases same : target.key = key <;> simp [same]

theorem targetOf?_eq_some_iff {key : ClassKey} {target : ClassTarget} :
    program.targetOf? file key diagnostic = some target ↔
      program.findClassAt file diagnostic.start = .ok target ∧ target.key = key := by
  cases found : program.findClassAt file diagnostic.start with
  | error error => simp [targetOf?_of_error found]
  | ok seen =>
      rw [targetOf?_of_ok found, Except.ok.injEq]
      split
      · next same =>
          rw [Option.some.injEq, iff_self_and]
          rintro rfl
          exact same
      · next different =>
          simp only [reduceCtorEq, false_iff, not_and]
          rintro rfl
          exact different

/-- What a diagnostic sees behind others, with what this says about its own lookup. -/
theorem sight_cases (program : Program) (file : Path) (diagnostics : List Diagnostic)
    (diagnostic : Diagnostic) :
    (∃ error, program.sight file diagnostics diagnostic = .nothing error ∧
      program.findClassAt file diagnostic.start = .error error) ∨
    (∃ target, program.sight file diagnostics diagnostic = .first target ∧
      program.findClassAt file diagnostic.start = .ok target ∧
      program.firstTarget? file target.key diagnostics = none) ∨
    (∃ target seen, program.sight file diagnostics diagnostic = .again seen ∧
      program.findClassAt file diagnostic.start = .ok target ∧
      program.firstTarget? file target.key diagnostics = some seen) := by
  cases found : program.findClassAt file diagnostic.start with
  | error error => exact Or.inl ⟨error, by simp [sight, found], rfl⟩
  | ok target =>
      cases known : program.firstTarget? file target.key diagnostics with
      | none => exact Or.inr (Or.inl ⟨target, by simp [sight, found, known], rfl, known⟩)
      | some seen =>
          exact Or.inr (Or.inr ⟨target, seen, by simp [sight, found, known], rfl, known⟩)

theorem mem_sights {entry : Diagnostic × Sight}
    (member : entry ∈ program.sights file diagnostics) :
    entry.1 ∈ diagnostics ∧ ∃ earlier, entry.2 = program.sight file earlier entry.1 := by
  induction diagnostics using List.reverseRecOn with
  | nil => cases member
  | append_singleton diagnostics diagnostic induction =>
      rw [sights_append] at member
      rcases List.mem_append.mp member with member | member
      · rcases induction member with ⟨given, seen⟩
        exact ⟨List.mem_append_left _ given, seen⟩
      · rw [List.mem_singleton.mp member]
        exact ⟨List.mem_append_right _ (List.mem_singleton_self _), diagnostics, rfl⟩

theorem exists_mem_sights (given : diagnostic ∈ diagnostics) :
    ∃ earlier, (diagnostic, program.sight file earlier diagnostic) ∈
      program.sights file diagnostics := by
  induction diagnostics using List.reverseRecOn with
  | nil => cases given
  | append_singleton diagnostics last induction =>
      rw [sights_append]
      rcases List.mem_append.mp given with given | given
      · rcases induction given with ⟨earlier, member⟩
        exact ⟨earlier, List.mem_append_left _ member⟩
      · rw [List.mem_singleton.mp given]
        exact ⟨diagnostics, List.mem_append_right _ (List.mem_singleton_self _)⟩

theorem exists_sight_of_mem_firstTargets {target : ClassTarget}
    (member : target ∈ program.firstTargets file diagnostics) :
    ∃ diagnostic, (diagnostic, Sight.first target) ∈ program.sights file diagnostics := by
  rcases List.mem_filterMap.mp member with ⟨⟨diagnostic, sight⟩, entry, isFirst⟩
  cases sight with
  | nothing error => cases isFirst
  | first seen =>
      cases isFirst
      exact ⟨diagnostic, entry⟩
  | again seen => cases isFirst

/-! ## Classes that have been seen -/

theorem firstTarget?_eq_some_iff {key : ClassKey} {target : ClassTarget} :
    program.firstTarget? file key diagnostics = some target ↔
      target ∈ program.firstTargets file diagnostics ∧ target.key = key := by
  induction diagnostics using List.reverseRecOn with
  | nil => simp [firstTarget?, firstTargets, sights, sightsFrom]
  | append_singleton diagnostics diagnostic induction =>
      rw [firstTarget?_append, firstTargets_append, List.mem_append]
      rcases program.sight_cases file diagnostics diagnostic with
        ⟨error, sees, missing⟩ | ⟨seen, sees, found, fresh⟩ | ⟨seen, first, sees, found, known⟩
      · rw [sees, targetOf?_of_error missing, Option.or_none, induction]
        simp [Sight.first?]
      · rw [sees, targetOf?_of_ok found]
        by_cases same : seen.key = key
        · rw [if_pos same, ← same, fresh, Option.none_or, Option.some.injEq]
          have unseen : ¬(target ∈ program.firstTargets file diagnostics ∧ target.key = seen.key) :=
            fun member => by
              rw [same] at member fresh
              rw [induction.mpr member] at fresh
              cases fresh
          constructor
          · rintro rfl
            exact ⟨Or.inr (List.mem_singleton_self _), rfl⟩
          · rintro ⟨member | member, keyed⟩
            · exact absurd ⟨member, keyed⟩ unseen
            · exact (List.mem_singleton.mp member).symm
        · rw [if_neg same, Option.or_none, induction]
          refine and_congr_left fun keyed => ⟨Or.inl, fun member => ?_⟩
          rcases member with member | member
          · exact member
          · rw [List.mem_singleton.mp member] at keyed
            exact absurd keyed same
      · rw [sees, targetOf?_of_ok found]
        have unchanged : (program.firstTarget? file key diagnostics).or
            (if seen.key = key then some seen else none) =
              program.firstTarget? file key diagnostics := by
          by_cases same : seen.key = key
          · rw [← same, known]
            rfl
          · rw [if_neg same, Option.or_none]
        rw [unchanged, induction]
        simp [Sight.first?]

theorem firstTarget?_isSome_iff {key : ClassKey} :
    (program.firstTarget? file key diagnostics).isSome = true ↔
      ∃ diagnostic ∈ diagnostics, program.locates file key diagnostic = true := by
  rw [firstTarget?, List.isSome_findSome?, List.any_eq_true]
  rfl

theorem nodup_keys_firstTargets (program : Program) (file : Path)
    (diagnostics : List Diagnostic) :
    ((program.firstTargets file diagnostics).map ClassTarget.key).Nodup := by
  induction diagnostics using List.reverseRecOn with
  | nil => exact List.nodup_nil
  | append_singleton diagnostics diagnostic induction =>
      rw [firstTargets_append]
      rcases program.sight_cases file diagnostics diagnostic with
        ⟨_, sees, _⟩ | ⟨seen, sees, _, fresh⟩ | ⟨_, _, sees, _⟩
      · simpa [sees, Sight.first?] using induction
      · rw [sees, List.map_append, List.nodup_append]
        refine ⟨induction, List.pairwise_singleton .., ?_⟩
        rintro key member other isSeen rfl
        rcases List.mem_map.mp member with ⟨target, known, keyed⟩
        rw [List.mem_singleton.mp isSeen] at keyed
        rw [firstTarget?_eq_some_iff.mpr ⟨known, keyed⟩] at fresh
        cases fresh
      · simpa [sees, Sight.first?] using induction

/-- A class that has been seen is the one that some diagnostic points at. -/
theorem exists_of_mem_firstTargets {target : ClassTarget}
    (member : target ∈ program.firstTargets file diagnostics) :
    ∃ diagnostic ∈ diagnostics, program.findClassAt file diagnostic.start = .ok target := by
  have seen := firstTarget?_eq_some_iff.mpr ⟨member, rfl⟩
  rcases List.exists_of_findSome?_eq_some seen with ⟨diagnostic, given, found⟩
  exact ⟨diagnostic, given, (targetOf?_eq_some_iff.mp found).1⟩

end Program

end MemberStubs
