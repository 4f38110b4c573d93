import MemberStubs.Proofs.Absorption.Effect
import MemberStubs.Proofs.Absorption.Owed
import MemberStubs.Proofs.Repair.Exactness
import MemberStubs.Proofs.Repair.Identity

/-! A batch is done once. When its edits have been absorbed, the same diagnostics ask for nothing more:
what a class still owes has been owed before, and a stub has been absorbed for it unless none could be
written. -/

namespace MemberStubs

theorem Program.indexed_of_membersOf {program : Program} {type : TypeRef} {table : MemberTable}
    (resolved : program.membersOf type = .ok table) : table.Indexed := by
  have unchanged : Program.Grown program program := ⟨Snapshot.Grown.refl program.snapshot, rfl⟩
  rcases unchanged.membersOf type with ⟨_, failed, _⟩ | ⟨_, _, found, _, tables⟩
  · rw [resolved] at failed
    cases failed
  · cases resolved.symm.trans found
    exact tables.indexed

theorem Program.nodup_names_candidates {program : Program} {target : ClassTarget}
    {owed : Candidates} (found : program.typeModel.candidates target = .ok owed) :
    (owed.members.map Member.name).Nodup ∧
      ∀ member ∈ owed.members, target.declares member.name = false := by
  rcases TypeModel.exists_of_candidates found with ⟨_, table, _, members, rfl⟩
  constructor
  · exact (program.indexed_of_membersOf members).nodup_names.sublist
      (List.filter_sublist.map Member.name)
  · intro member kept
    have test := List.of_mem_filter kept
    simp only [Bool.and_eq_true, Bool.not_eq_true'] at test
    exact test.2

theorem SourceFile.class?_of_mem {file : SourceFile}
    (distinct : (file.classes.map (·.span.start)).Nodup) {decl : ClassDecl}
    (member : decl ∈ file.classes) : file.class? decl.span.start = some decl := by
  cases found : file.class? decl.span.start with
  | none =>
      have nowhere := List.find?_eq_none.mp found decl member
      exact absurd (decide_eq_true rfl) nowhere
  | some other =>
      have present := List.mem_of_find?_eq_some found
      have same : other.span.start = decl.span.start := by simpa using List.find?_some found
      rw [List.inj_on_of_nodup_map distinct present member same]

namespace Batch

variable {program : Program} {style : StubStyle} {diagnostics : List Diagnostic}

/-! ## The first run -/

theorem normal_of_mem_edits {edit : FileEdit}
    (member : edit ∈ (repairAll program style diagnostics).edits.files) :
    edit.path.normalize = edit.path := by
  have among := (sublist_paths program style diagnostics).subset
    (List.mem_map.mpr ⟨edit, member, rfl⟩)
  rcases mem_paths_iff.mp among with ⟨diagnostic, _, _, same⟩
  rw [← same, Path.normalize_normalize]

/-- Where the edit of a class comes from. -/
theorem exists_of_mem_classesAt {path : Path} {edit : ClassEdit}
    (member : edit ∈ classesAt program style diagnostics path) :
    ∃ decl source owed,
      program.snapshot.file? path = some source ∧ decl ∈ source.classes ∧
      edit.key = ⟨path, decl.span.start⟩ ∧
      program.firstTarget? path edit.key (sited diagnostics path) = some (.ofDecl path decl) ∧
      program.typeModel.candidates (.ofDecl path decl) = .ok owed ∧
      edit.stubs = (style.partition owed.members).1 ∧
      edit.skipped = (style.partition owed.members).2.map UnsupportedShape.toSkipped := by
  rcases mem_classesAt_iff.mp member with ⟨target, sole, first, alone, whole⟩
  rcases Program.firstTarget?_eq_some_iff.mp first with ⟨seen, keyed⟩
  rcases Program.exists_of_mem_firstTargets seen with ⟨_, _, found⟩
  rcases Program.findClassAt_eq_ok_iff.mp found with ⟨decl, located, rfl⟩
  rcases Program.mem_of_declAtName? located with ⟨source, here, present⟩
  rcases exists_of_repairOne alone with ⟨owed, candidates, _, rfl⟩
  exact ⟨decl, source, owed, here, present, keyed.symm, first, candidates, by rw [whole]; rfl,
    by rw [whole]; rfl⟩

theorem pairwise_start_classesAt (program : Program) (style : StubStyle)
    (diagnostics : List Diagnostic) (path : Path) :
    (classesAt program style diagnostics path).Pairwise fun first second =>
      first.key.start ≠ second.key.start := by
  have atPath : ∀ edit ∈ classesAt program style diagnostics path, edit.key.file = path := by
    intro edit member
    rcases exists_of_mem_classesAt member with ⟨_, _, _, _, _, keyed, _⟩
    rw [keyed]
  have keys := FileRepair.nodup_keys_classesOf program style path (sited diagnostics path)
  refine (List.pairwise_map.mp keys).imp_of_mem ?_
  intro first second isFirst isSecond different same
  apply different
  exact (ClassKey.start_eq_iff ((atPath first isFirst).trans (atPath second isSecond).symm)).mp same

theorem awaits_of_mem_classesAt (distinct : program.snapshot.DistinctStarts) {path : Path}
    {source : SourceFile} (here : program.snapshot.file? path = some source) {edit : ClassEdit}
    (member : edit ∈ classesAt program style diagnostics path) : source.Awaits edit := by
  rcases exists_of_mem_classesAt member with
    ⟨decl, source', owed, here', present, keyed, _, candidates, stubs, _⟩
  cases here.symm.trans here'
  rcases Program.nodup_names_candidates candidates with ⟨nodup, undeclared⟩
  have names := (style.names_partition owed.members).1
  rw [← stubs] at names
  refine ⟨decl, ?_, ?_, fun stub brought => ?_⟩
  · rw [keyed]
    exact source.class?_of_mem (distinct source (Snapshot.mem_of_file? here)) present
  · rw [names]
    exact nodup.sublist (List.filter_sublist.map Member.name)
  · have named := names ▸ List.mem_map.mpr ⟨stub, brought, rfl⟩
    rcases List.mem_map.mp named with ⟨owing, kept, same⟩
    rw [← same, ← ClassTarget.declares_ofDecl path]
    exact undeclared owing (List.mem_of_mem_filter kept)

theorem awaits_edits (distinct : program.snapshot.DistinctStarts) {edit : FileEdit}
    (member : edit ∈ (repairAll program style diagnostics).edits.files) :
    program.snapshot.Awaits edit := by
  rcases mem_files_iff.mp member with ⟨something, whole⟩
  rcases List.exists_mem_of_ne_nil _ something with ⟨one, held⟩
  rcases exists_of_mem_classesAt held with ⟨_, source, _, here, _⟩
  rw [whole]
  exact ⟨source, here, pairwise_start_classesAt program style diagnostics edit.path,
    fun one held => awaits_of_mem_classesAt distinct here held⟩

theorem gained_absorb (distinct : program.snapshot.DistinctStarts) :
    (program.absorb (repairAll program style diagnostics).edits).2 =
      (repairAll program style diagnostics).edits.stubCount := by
  apply Snapshot.gained_absorb
  · have increasing := (paths_increasing diagnostics).sublist
      (sublist_paths program style diagnostics)
    refine (List.pairwise_map.mp increasing).imp_of_mem ?_
    intro first second isFirst isSecond before
    rw [normal_of_mem_edits isFirst, normal_of_mem_edits isSecond]
    exact before.ne
  · intro edit member
    exact awaits_edits distinct member

theorem exists_mem_classesAt_of_supported {path : Path} {key : ClassKey} {target : ClassTarget}
    {owed : Candidates} (first : program.firstTarget? path key (sited diagnostics path) = some target)
    (candidates : program.typeModel.candidates target = .ok owed)
    (supported : ∃ member ∈ owed.members, member.isSupported = true) :
    ∃ edit ∈ classesAt program style diagnostics path,
      edit.key = key ∧ edit.stubs = (style.partition owed.members).1 := by
  rcases Program.firstTarget?_eq_some_iff.mp first with ⟨seen, rfl⟩
  let sole := target.edit (style.partition owed.members).1 (style.partition owed.members).2 []
  have outcome : target.outcome style owed.members [] = .ok (some sole) :=
    ClassTarget.outcome_eq_ok_some_iff.mpr ⟨supported, rfl⟩
  have alone : repairOne program.typeModel style target =
      .ok (some { files := [{ path, classes := [sole] }] }) := by
    rw [repairOne, repairClass_of_candidates style [] candidates, outcome,
      ← FileRepair.file_of_mem_firstTargets seen]
    rfl
  exact ⟨_, mem_classesAt first alone, rfl, rfl⟩

/-! ## The second run -/

/-- A program that has absorbed the edits of its own batch. -/
def repaired (program : Program) (style : StubStyle) (diagnostics : List Diagnostic) : Program :=
  (program.absorb (repairAll program style diagnostics).edits).1

theorem grown_repaired (program : Program) (style : StubStyle) (diagnostics : List Diagnostic) :
    Program.Grown program (repaired program style diagnostics) :=
  Program.Grown.absorb program _

/-- A class that is located after the edits has been located before. -/
theorem exists_of_located_again (distinct : program.snapshot.DistinctStarts) {path : Path}
    {diagnostic : Diagnostic} (given : diagnostic ∈ sited diagnostics path)
    {target' : ClassTarget}
    (found : (repaired program style diagnostics).findClassAt path diagnostic.start =
      .ok target') :
    ∃ decl decl' source', target' = .ofDecl path decl' ∧ decl.Grown decl' ∧
      program.firstTarget? path target'.key (sited diagnostics path) = some (.ofDecl path decl) ∧
      (repaired program style diagnostics).snapshot.file? path = some source' ∧
      source'.class? decl'.span.start = some decl' := by
  have grown := grown_repaired program style diagnostics
  rcases Program.findClassAt_eq_ok_iff.mp found with ⟨decl', located', rfl⟩
  rcases Program.mem_of_declAtName? located' with ⟨source', here', member'⟩
  have classes := grown.declAtName? path diagnostic.start
  have files := grown.snapshot.file? path
  rw [located'] at classes
  rw [here'] at files
  rcases exists_of_rel_some classes with ⟨decl, located, pair⟩
  rcases exists_of_rel_some files with ⟨source, here, pairs⟩
  have foundBefore := Program.findClassAt_eq_ok_iff.mpr ⟨decl, located, rfl⟩
  have first := Program.firstTarget?_of_located distinct given foundBefore
  have starts := distinct source (Snapshot.mem_of_file? here)
  rw [← pairs.starts_eq] at starts
  refine ⟨decl, decl', source', rfl, pair, ?_, here', source'.class?_of_mem starts member'⟩
  rw [← first, ClassTarget.ofDecl, ClassTarget.ofDecl, pair.span_eq]

/-- After the edits a class declares every owed member for which a stub can be written. -/
theorem declares_of_supported {path : Path} {key : ClassKey} {target : ClassTarget}
    {owed : Candidates}
    (first : program.firstTarget? path key (sited diagnostics path) = some target)
    (candidates : program.typeModel.candidates target = .ok owed) {member : Member}
    (owing : member ∈ owed.members) (supported : member.isSupported = true)
    {source : SourceFile}
    (here : (repaired program style diagnostics).snapshot.file? path = some source)
    {decl : ClassDecl} (present : source.class? key.start = some decl) :
    decl.declares member.name = true := by
  rcases exists_mem_classesAt_of_supported first candidates ⟨member, owing, supported⟩ with
    ⟨edit, held, keyed, stubs⟩
  have file : ⟨path, none, classesAt program style diagnostics path⟩ ∈
      (repairAll program style diagnostics).edits.files :=
    mem_files_iff.mpr ⟨List.ne_nil_of_mem held, rfl⟩
  rw [← keyed] at present
  have declared := Snapshot.declares_absorb program.snapshot file source here edit held decl present
  have brought : member.name ∈ edit.stubs.map Stub.name := by
    rw [stubs, (style.names_partition owed.members).1]
    exact List.mem_map.mpr ⟨member, List.mem_filter.mpr ⟨owing, supported⟩, rfl⟩
  rcases List.mem_map.mp brought with ⟨stub, isStub, named⟩
  rw [← named]
  exact declared stub isStub

/-- What a located class owes after the edits it has owed before, and there is no stub for it. -/
theorem candidates_again (distinct : program.snapshot.DistinctStarts) {path : Path}
    {diagnostic : Diagnostic} (given : diagnostic ∈ sited diagnostics path)
    {target' : ClassTarget}
    (found : (repaired program style diagnostics).findClassAt path diagnostic.start =
      .ok target') :
    ∃ target, program.firstTarget? path target'.key (sited diagnostics path) = some target ∧
      ((∃ error, program.typeModel.candidates target = .error error ∧
          (repaired program style diagnostics).typeModel.candidates target' = .error error) ∨
        ∃ owed owed', program.typeModel.candidates target = .ok owed ∧
          (repaired program style diagnostics).typeModel.candidates target' = .ok owed' ∧
          ∀ member ∈ owed'.members, member ∈ owed.members ∧ member.isSupported = false) := by
  rcases exists_of_located_again distinct given found with
    ⟨decl, decl', source', rfl, pair, first, here', present'⟩
  refine ⟨_, first, ?_⟩
  rcases ((grown_repaired program style diagnostics).candidates (.ofDecl pair path)).cases with
    failed | ⟨owed, owed', candidates, candidates', fewer⟩
  · exact Or.inl failed
  · refine Or.inr ⟨owed, owed', candidates, candidates', fun member owing => ?_⟩
    have before := fewer.subset owing
    have undeclared := (Program.nodup_names_candidates candidates').2 member owing
    refine ⟨before, Bool.eq_false_iff.mpr fun supported => ?_⟩
    have declared := declares_of_supported first candidates before supported here' present'
    rw [ClassTarget.declares_ofDecl, declared] at undeclared
    cases undeclared

theorem isSupported_again (distinct : program.snapshot.DistinctStarts) {path : Path}
    {diagnostic : Diagnostic} (given : diagnostic ∈ sited diagnostics path) {target : ClassTarget}
    (found : (repaired program style diagnostics).findClassAt path diagnostic.start = .ok target)
    {owed : Candidates}
    (candidates : (repaired program style diagnostics).typeModel.candidates target = .ok owed)
    {member : Member} (owing : member ∈ owed.members) : member.isSupported = false := by
  rcases candidates_again distinct given found with
    ⟨_, _, ⟨_, _, failed⟩ | ⟨_, _, _, candidates', still⟩⟩
  · rw [candidates] at failed
    cases failed
  · cases candidates'.symm.trans candidates
    exact (still member owing).2

/-- A class that was repaired without skipping a member owes nothing after the edits. -/
theorem candidates_of_unskipped (distinct : program.snapshot.DistinctStarts) {path : Path}
    {diagnostic : Diagnostic} (given : diagnostic ∈ sited diagnostics path) {target : ClassTarget}
    (found : (repaired program style diagnostics).findClassAt path diagnostic.start = .ok target)
    {edit : ClassEdit} (held : edit ∈ classesAt program style diagnostics path)
    (keyed : edit.key = target.key) (unskipped : edit.skipped = []) :
    ∃ base, (repaired program style diagnostics).typeModel.candidates target =
      .ok ⟨base, []⟩ := by
  rcases exists_of_mem_classesAt held with
    ⟨decl, _, owed, _, _, _, first, candidates, _, skipped⟩
  rcases candidates_again distinct given found with ⟨before, firstBefore, answer⟩
  rw [← keyed, first] at firstBefore
  cases firstBefore
  rcases answer with ⟨_, failed, _⟩ | ⟨_, owed', candidates', again, still⟩
  · rw [candidates] at failed
    cases failed
  cases candidates.symm.trans candidates'
  have supported := (style.names_partition owed.members).2
  rw [List.map_eq_nil_iff.mp (skipped.symm.trans unskipped), List.map_nil, eq_comm,
    List.map_eq_nil_iff, List.filter_eq_nil_iff] at supported
  have nothing : owed'.members = [] := by
    apply List.eq_nil_iff_forall_not_mem.mpr
    intro member owing
    rcases still member owing with ⟨before, unsupported⟩
    have test := supported member before
    rw [unsupported] at test
    exact test rfl
  refine ⟨owed'.base, ?_⟩
  rw [again, ← nothing]

theorem edits_again (distinct : program.snapshot.DistinctStarts) :
    (repairAll (repaired program style diagnostics) style diagnostics).edits = {} := by
  have nothing : ∀ path,
      fileEdit? (repaired program style diagnostics) style diagnostics path = none := by
    intro path
    apply if_pos
    apply by_contra
    intro something
    rcases List.exists_mem_of_ne_nil _ something with ⟨edit, held⟩
    rcases mem_classesAt_iff.mp held with ⟨target, sole, first, alone, _⟩
    rcases Program.firstTarget?_eq_some_iff.mp first with ⟨seen, _⟩
    rcases Program.exists_of_mem_firstTargets seen with ⟨diagnostic, given, found⟩
    rcases exists_of_repairOne alone with ⟨owed, candidates, ⟨member, owing, supported⟩, _⟩
    rw [isSupported_again distinct given found candidates owing] at supported
    cases supported
  rw [repairAll_eq]
  simp [nothing]

theorem failures_again (distinct : program.snapshot.DistinctStarts) {edit : ClassEdit}
    (member : edit ∈ (repairAll program style diagnostics).edits.classes)
    (unskipped : edit.skipped = []) {failure : ClassFailure}
    (failed : failure ∈
      (repairAll (repaired program style diagnostics) style diagnostics).failures) :
    (repaired program style diagnostics).locates failure.diagnostic.file.normalize edit.key
      failure.diagnostic = false := by
  rcases exists_of_mem_failures failed with ⟨given, missing | ⟨target, found, alone⟩⟩
  · exact Program.locates_of_error missing edit.key
  · rw [Program.locates_of_ok found, decide_eq_false_iff_not]
    intro same
    rcases List.mem_flatMap.mp member with ⟨file, fileMember, held⟩
    rw [(mem_files_iff.mp fileMember).2] at held
    have samePath : file.path = failure.diagnostic.file.normalize := by
      rcases exists_of_mem_classesAt held with ⟨_, _, _, _, _, keyed, _⟩
      rw [← Program.file_of_findClassAt found, same, keyed]
    rw [samePath] at held
    rcases candidates_of_unskipped distinct given found held same.symm unskipped with
      ⟨base, candidates⟩
    rw [repairOne, repairClass_of_candidates style [] candidates] at alone
    cases alone

end Batch

/-- What is left to do when the edits of a batch have been absorbed: nothing that could be done. -/
structure Batch.Settled (batch : Batch) (absorbed : Program × Nat) (again : Batch) : Prop where
  gained : absorbed.2 = batch.edits.stubCount
  edits : again.edits = {}
  failures : ∀ edit ∈ batch.edits.classes, edit.skipped = [] → ∀ failure ∈ again.failures,
    absorbed.1.locates failure.diagnostic.file.normalize edit.key failure.diagnostic = false

theorem repairAll_settled (snapshot : Snapshot) (style : StubStyle) (diagnostics : List Diagnostic)
    (distinct : snapshot.DistinctStarts) :
    let program := Program.ofSnapshot snapshot
    let batch := repairAll program style diagnostics
    let absorbed := program.absorb batch.edits
    batch.Settled absorbed (repairAll absorbed.1 style diagnostics) where
  gained := Batch.gained_absorb distinct
  edits := Batch.edits_again distinct
  failures _ member unskipped _ failed := Batch.failures_again distinct member unskipped failed

/-- The circle and the ring, its base, are repaired together. -/
theorem repairAll_settled_shapes :
    RepairsExactly.shapes.DistinctStarts ∧
      let program := Program.ofSnapshot RepairsExactly.shapes
      let diagnostics : List Diagnostic :=
        [{ code := 2515, file := ⟨"src/shapes.ts"⟩, start := 8 },
          { code := 2515, file := ⟨"./src/shapes.ts"⟩, start := 117 }]
      let batch := repairAll program {} diagnostics
      let absorbed := program.absorb batch.edits
      batch.Settled absorbed (repairAll absorbed.1 {} diagnostics) :=
  ⟨by decide, repairAll_settled RepairsExactly.shapes {} _ (by decide)⟩

end MemberStubs
