import Mathlib.Data.List.Nodup
import MemberStubs.Proofs.Repair.Batch

/-! The identity of classes. In a file whose classes start at different offsets a key stands for one
class, so all diagnostics that locate a key locate the same target. -/

namespace MemberStubs

def Snapshot.DistinctStarts (snapshot : Snapshot) : Prop :=
  ∀ file ∈ snapshot.files, (file.classes.map (·.span.start)).Nodup

instance (snapshot : Snapshot) : Decidable snapshot.DistinctStarts :=
  inferInstanceAs (Decidable (∀ file ∈ snapshot.files, (file.classes.map (·.span.start)).Nodup))

theorem Program.mem_of_innermost? {decls : List ClassDecl} {decl : ClassDecl}
    (found : innermost? decls = some decl) : decl ∈ decls := by
  induction decls with
  | nil => cases found
  | cons first later induction =>
      rw [innermost?] at found
      cases inner : innermost? later with
      | none =>
          simp only [inner, Option.some.injEq] at found
          rw [found]
          exact List.mem_cons_self ..
      | some other =>
          simp only [inner] at found
          split at found
          · cases found
            exact List.mem_cons_of_mem _ (induction inner)
          · cases found
            exact List.mem_cons_self ..

/-- A class that is found at a name is a class of the file. -/
theorem Program.mem_of_declAtName? {program : Program} {file : Path} {position : UInt64}
    {decl : ClassDecl} (found : program.declAtName? file position = some decl) :
    ∃ source, program.snapshot.file? file = some source ∧ decl ∈ source.classes := by
  rcases Option.bind_eq_some_iff.mp found with ⟨source, here, found⟩
  rcases Option.bind_eq_some_iff.mp found with ⟨inner, nearest, found⟩
  have same : inner = decl := by
    split at found
    · exact Option.some.inj found
    · cases found
  subst same
  exact ⟨source, here, List.mem_of_mem_filter (mem_of_innermost? nearest)⟩

theorem Snapshot.mem_of_file? {snapshot : Snapshot} {path : Path} {source : SourceFile}
    (found : snapshot.file? path = some source) : source ∈ snapshot.files :=
  List.mem_of_find?_eq_some found

section

variable {program : Program} {file : Path} {first second : UInt64} {target other : ClassTarget}

/-- Two targets with one key are one target. -/
theorem Program.target_unique (distinct : program.snapshot.DistinctStarts)
    (found : program.findClassAt file first = .ok target)
    (again : program.findClassAt file second = .ok other) (same : target.key = other.key) :
    target = other := by
  rcases findClassAt_eq_ok_iff.mp found with ⟨decl, located, rfl⟩
  rcases findClassAt_eq_ok_iff.mp again with ⟨decl', located', rfl⟩
  rcases mem_of_declAtName? located with ⟨source, here, member⟩
  rcases mem_of_declAtName? located' with ⟨source', here', member'⟩
  cases here.symm.trans here'
  have starts : decl.span.start = decl'.span.start := congrArg ClassKey.start same
  rw [List.inj_on_of_nodup_map (distinct source (Snapshot.mem_of_file? here)) member member' starts]

theorem Program.firstTarget?_of_located (distinct : program.snapshot.DistinctStarts)
    {diagnostics : List Diagnostic} {diagnostic : Diagnostic} (given : diagnostic ∈ diagnostics)
    (found : program.findClassAt file diagnostic.start = .ok target) :
    program.firstTarget? file target.key diagnostics = some target := by
  have located : program.locates file target.key diagnostic = true := by
    rw [locates_of_ok found]
    exact decide_eq_true rfl
  have seen := firstTarget?_isSome_iff.mpr ⟨diagnostic, given, located⟩
  rcases Option.isSome_iff_exists.mp seen with ⟨known, first⟩
  rcases firstTarget?_eq_some_iff.mp first with ⟨member, keyed⟩
  rcases exists_of_mem_firstTargets member with ⟨_, _, foundFirst⟩
  rw [first, target_unique distinct foundFirst found keyed]

end

end MemberStubs
