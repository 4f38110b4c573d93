import MemberStubs.Proofs.Heritage.Declared
import MemberStubs.Proofs.Repair.ClassRepair

/-! A repair supplies exactly what is owed. A class owes a name if the nearest declaration of the
name on its base chain is abstract and not private and the class does not declare the name itself.
The main statement says for every class with one base whose chain ends that the stubs and the skipped
members of its edit are the owed names, in the order of the chain, and that the repair answers
nothing or fails in no other case than it should. -/

namespace MemberStubs

namespace Heritage

def owes (chain : List ClassDecl) (decl : ClassDecl) (name : String) : Bool :=
  ((nearest? chain name).any fun declared =>
    declared.isAbstract && declared.visibility ≠ .privateAccess) &&
  !decl.declares name

def owedNames (chain : List ClassDecl) (decl : ClassDecl) : List String :=
  (names chain).filter (owes chain decl)

def supports (chain : List ClassDecl) (name : String) : Bool :=
  (nearest? chain name).any Declared.isSupported

theorem declaration?_eq_none {decl : ClassDecl} {name : String}
    (absent : name ∉ decl.members.map Member.name) : decl.declaration? name = none := by
  have nothing : decl.members.filter (·.name = name) = [] := by
    apply List.filter_eq_nil_iff.mpr
    intro member stored named
    exact absent (List.mem_map.mpr ⟨member, stored, by simpa using named⟩)
  rw [ClassDecl.declaration?, nothing]

theorem mem_owedNames {chain : List ClassDecl} {decl : ClassDecl} {name : String} :
    name ∈ owedNames chain decl ↔ owes chain decl name = true := by
  rw [owedNames, List.mem_filter, and_iff_right_iff_imp, names, List.mem_eraseDups,
    List.mem_flatMap]
  intro owed
  apply by_contra
  intro absent
  have nowhere : nearest? chain name = none := by
    apply List.findSome?_eq_none_iff.mpr
    intro level member
    exact declaration?_eq_none fun present => absent ⟨level, member, present⟩
  simp [owes, nowhere] at owed

theorem nodup_owedNames (chain : List ClassDecl) (decl : ClassDecl) :
    (owedNames chain decl).Nodup :=
  (nodup_eraseDups _).filter _

end Heritage

/-! ## Members and names -/

/-- Choosing members by what their names say is choosing names. -/
theorem map_name_filter {members : List Member} {member? : Member → Bool} {name? : String → Bool}
    (agree : ∀ member ∈ members, member? member = name? member.name) :
    (members.filter member?).map Member.name = (members.map Member.name).filter name? := by
  rw [List.filter_map]
  congr 1
  exact List.filter_congr agree

section

variable {chain : List ClassDecl} {table : MemberTable}

theorem asDeclared_of_mem (indexed : table.Indexed)
    (declared : ∀ name, (table.find? name).map Member.asDeclared = Heritage.nearest? chain name)
    {member : Member} (stored : member ∈ table.members) :
    Heritage.nearest? chain member.name = some member.asDeclared := by
  rw [← declared, indexed.find?_eq_some_iff.mpr ⟨stored, rfl⟩]
  rfl

theorem owes_of_mem (indexed : table.Indexed)
    (declared : ∀ name, (table.find? name).map Member.asDeclared = Heritage.nearest? chain name)
    (decl : ClassDecl) {member : Member} (stored : member ∈ table.members) :
    (member.isOwed && !decl.declares member.name) = Heritage.owes chain decl member.name := by
  rw [Heritage.owes, asDeclared_of_mem indexed declared stored]
  simp [Member.isOwed, Member.asDeclared, Visibility.isPrivate]

theorem supports_of_mem (indexed : table.Indexed)
    (declared : ∀ name, (table.find? name).map Member.asDeclared = Heritage.nearest? chain name)
    {member : Member} (stored : member ∈ table.members) :
    member.isSupported = Heritage.supports chain member.name := by
  rw [Heritage.supports, asDeclared_of_mem indexed declared stored]
  rfl

end

namespace Program

theorem baseType_of_heritage {snapshot : Snapshot} {target : ClassTarget} {base : TypeRef}
    {chain : List ClassDecl} (single : target.bases = [base])
    (heritage : Heritage snapshot base.name chain) :
    (ofSnapshot snapshot).baseType target = .ok base := by
  have known : ∃ decl, (ofSnapshot snapshot).lookup? base.name = some decl ∧
      decl.isClass = true := by
    simp only [lookup?_ofSnapshot]
    cases heritage with
    | root found isClass => exact ⟨_, found, isClass⟩
    | step found isClass => exact ⟨_, found, isClass⟩
  rcases known with ⟨decl, found, isClass⟩
  rw [baseType_of_bases _ single, found]
  exact if_pos isClass

end Program

/-! ## Answers -/

section

variable {answer : Except RepairError (Option α)} {change : α → β}

theorem map_eq_ok_none_iff :
    answer.map (Option.map change) = .ok none ↔ answer = .ok none := by
  rcases answer with error | _ | value <;> simp [Except.map]

theorem map_eq_ok_some_iff {changed : β} :
    answer.map (Option.map change) = .ok (some changed) ↔
      ∃ value, answer = .ok (some value) ∧ change value = changed := by
  rcases answer with error | _ | value <;> simp [Except.map]

theorem map_eq_error_iff {error : RepairError} :
    answer.map (Option.map change) = .error error ↔ answer = .error error := by
  rcases answer with error | _ | value <;> simp [Except.map]

end

/-! ## The edit of one class -/

/-- What a repair has to answer for a class with a given base chain. -/
structure RepairsExactly (chain : List ClassDecl) (decl : ClassDecl) (file : Path)
    (result : Except RepairError (Option EditSet)) : Prop where
  nothing_iff : result = .ok none ↔ ∀ name, Heritage.owes chain decl name = false
  unsupported_iff :
    (∃ subject unsupported, result = .error (.noSupportedMembers subject unsupported)) ↔
      (∃ name, Heritage.owes chain decl name = true) ∧
        ∀ name, Heritage.owes chain decl name = true → Heritage.supports chain name = false
  edits_iff :
    (∃ edits, result = .ok (some edits)) ↔
      ∃ name, Heritage.owes chain decl name = true ∧ Heritage.supports chain name = true
  unsupported : ∀ subject unsupported,
    result = .error (.noSupportedMembers subject unsupported) →
      unsupported.map UnsupportedShape.name = Heritage.owedNames chain decl
  edit : ∀ edits, result = .ok (some edits) → ∃ edit : ClassEdit,
    edits = { files := [{ path := file, classes := [edit] }] } ∧
    (∀ name, name ∈ edit.stubs.map Stub.name ∨ name ∈ edit.skipped.map SkippedMember.name ↔
      Heritage.owes chain decl name = true) ∧
    edit.stubs.map Stub.name =
      (Heritage.owedNames chain decl).filter (Heritage.supports chain) ∧
    edit.skipped.map SkippedMember.name =
      (Heritage.owedNames chain decl).filter (!Heritage.supports chain ·) ∧
    (edit.stubs.map Stub.name ++ edit.skipped.map SkippedMember.name).Nodup

section

variable {snapshot : Snapshot} {base : TypeRef} {chain : List ClassDecl} {decl : ClassDecl}

/-- What a class with a given chain owes, as a list of members and as names. -/
theorem exists_owed (file : Path) (single : decl.bases = [base])
    (heritage : Heritage snapshot base.name chain) :
    ∃ owed, (Program.ofSnapshot snapshot).typeModel.candidates (.ofDecl file decl) =
        .ok ⟨base, owed⟩ ∧
      owed.map Member.name = Heritage.owedNames chain decl ∧
      ∀ member ∈ owed, member.isSupported = Heritage.supports chain member.name := by
  rcases Program.table_of_heritage heritage with ⟨table, members, indexed, order, declared⟩
  refine ⟨_, TypeModel.candidates_of_bases single
    (Program.baseType_of_heritage single heritage) members, ?_, ?_⟩
  · rw [Heritage.owedNames, ← order]
    apply map_name_filter
    intro member stored
    rw [ClassTarget.declares_ofDecl]
    exact owes_of_mem indexed declared decl stored
  · intro member owed
    exact supports_of_mem indexed declared (List.mem_of_mem_filter owed)

variable {owed : List Member}

theorem exists_mem_owed_iff (names : owed.map Member.name = Heritage.owedNames chain decl)
    {test : Member → Bool} {name? : String → Bool}
    (agree : ∀ member ∈ owed, test member = name? member.name) :
    (∃ member ∈ owed, test member = true) ↔
      ∃ name, Heritage.owes chain decl name = true ∧ name? name = true := by
  constructor
  · rintro ⟨member, owes, passes⟩
    exact ⟨member.name, Heritage.mem_owedNames.mp (names ▸ List.mem_map_of_mem owes),
      agree member owes ▸ passes⟩
  · rintro ⟨name, owes, passes⟩
    have listed := Heritage.mem_owedNames.mpr owes
    rw [← names] at listed
    rcases List.mem_map.mp listed with ⟨member, stored, rfl⟩
    exact ⟨member, stored, (agree member stored).trans passes⟩

/-- The names of the stubs and of the skipped members share out the owed names. -/
theorem names_edit (names : owed.map Member.name = Heritage.owedNames chain decl)
    (supports : ∀ member ∈ owed, member.isSupported = Heritage.supports chain member.name)
    (style : StubStyle) :
    (style.partition owed).1.map Stub.name =
        (Heritage.owedNames chain decl).filter (Heritage.supports chain) ∧
      (style.partition owed).2.map UnsupportedShape.name =
        (Heritage.owedNames chain decl).filter (!Heritage.supports chain ·) := by
  rw [(style.names_partition owed).1, (style.names_partition owed).2, ← names]
  constructor
  · exact map_name_filter supports
  · apply map_name_filter
    intro member stored
    rw [supports member stored]

theorem repairsExactly_of_owed {file : Path} {target : ClassTarget} (style : StubStyle)
    (site : target.key.file = file)
    (names : owed.map Member.name = Heritage.owedNames chain decl)
    (supports : ∀ member ∈ owed, member.isSupported = Heritage.supports chain member.name) :
    RepairsExactly chain decl file ((target.outcome style owed []).map
      (Option.map fun edit => { files := [{ path := target.key.file, classes := [edit] }] })) := by
  have nothing : owed = [] ↔ ∀ name, Heritage.owes chain decl name = false := by
    rw [← List.map_eq_nil_iff (f := Member.name), names, List.eq_nil_iff_forall_not_mem]
    simp only [Heritage.mem_owedNames, Bool.not_eq_true]
  have supported := exists_mem_owed_iff names supports
  have unsupported : (∀ member ∈ owed, member.isSupported = false) ↔
      ∀ name, Heritage.owes chain decl name = true → Heritage.supports chain name = false := by
    rw [← not_iff_not]
    simpa using supported
  rcases names_edit names supports style with ⟨stubNames, skippedNames⟩
  constructor
  · rw [map_eq_ok_none_iff, ClassTarget.outcome_eq_ok_none_iff, nothing]
  · simp only [map_eq_error_iff, ClassTarget.outcome_eq_error_iff, ne_eq, nothing, unsupported]
    constructor
    · rintro ⟨_, _, ⟨something, none⟩, _⟩
      exact ⟨by simpa using something, none⟩
    · rintro ⟨something, none⟩
      exact ⟨_, _, ⟨by simpa using something, none⟩, rfl⟩
  · simp only [map_eq_ok_some_iff, ClassTarget.outcome_eq_ok_some_iff]
    rw [← supported]
    constructor
    · rintro ⟨_, _, ⟨some, _⟩, _⟩
      exact some
    · intro some
      exact ⟨_, _, ⟨some, rfl⟩, rfl⟩
  · intro subject skipped failed
    rw [map_eq_error_iff, ClassTarget.outcome_eq_error_iff] at failed
    rcases failed with ⟨⟨_, none⟩, same⟩
    cases same
    rw [skippedNames, List.filter_eq_self]
    intro name listed
    simpa using unsupported.mp none name (Heritage.mem_owedNames.mp listed)
  · intro edits repaired
    rcases map_eq_ok_some_iff.mp repaired with ⟨edit, answered, rfl⟩
    rcases ClassTarget.outcome_eq_ok_some_iff.mp answered with ⟨_, rfl⟩
    have skippedEdit : ((style.partition owed).2.map UnsupportedShape.toSkipped).map
        SkippedMember.name =
        (Heritage.owedNames chain decl).filter (!Heritage.supports chain ·) := by
      rw [List.map_map, ← skippedNames]
      rfl
    have distinct := Heritage.nodup_owedNames chain decl
    refine ⟨_, by rw [site], fun name => ?_, stubNames, skippedEdit, ?_⟩
    · simp only [ClassTarget.edit]
      rw [stubNames, skippedEdit, ← Heritage.mem_owedNames, List.mem_filter, List.mem_filter]
      cases Heritage.supports chain name <;> simp
    · simp only [ClassTarget.edit]
      rw [stubNames, skippedEdit, List.nodup_append]
      refine ⟨distinct.filter _, distinct.filter _, fun first isStub second isSkipped => ?_⟩
      rintro rfl
      have yes := List.of_mem_filter isStub
      have no := List.of_mem_filter isSkipped
      simp [yes] at no

end

theorem repairOne_exact (snapshot : Snapshot) (style : StubStyle) {file : Path}
    {position : UInt64} {target : ClassTarget} {base : TypeRef} {chain : List ClassDecl}
    (found : (Program.ofSnapshot snapshot).findClassAt file position = .ok target)
    (single : target.bases = [base]) (heritage : Heritage snapshot base.name chain) :
    ∃ decl, (Program.ofSnapshot snapshot).declAtName? file position = some decl ∧
      target = .ofDecl file decl ∧
      RepairsExactly chain decl file
        (repairOne (Program.ofSnapshot snapshot).typeModel style target) := by
  rcases Program.findClassAt_eq_ok_iff.mp found with ⟨decl, located, rfl⟩
  refine ⟨decl, located, rfl, ?_⟩
  rcases exists_owed file single heritage with ⟨owed, candidates, names, supports⟩
  rw [repairOne, repairClass_of_candidates style [] candidates]
  exact repairsExactly_of_owed style rfl names supports

/-! A circle below a ring below a shape. The ring implements the area, hides the cache, and has a
concrete setter for a label whose abstract getter the circle still owes. No stub can be written for
the index signature of the shape. -/

namespace RepairsExactly

def shape : ClassDecl :=
  { name := "Shape", isAbstract := true, span := ⟨200, 300⟩, nameSpan := ⟨215, 220⟩
    members := [
      { name := "area", shape := .method [] [] "number", isAbstract := true },
      { name := "cache", shape := .property "string", isAbstract := true },
      { name := "sides", shape := .property "number", isAbstract := true },
      { name := "index", shape := .unknown, isAbstract := true }] }

def ring : ClassDecl :=
  { name := "Ring", isAbstract := true, span := ⟨100, 190⟩, nameSpan := ⟨115, 119⟩
    bases := [⟨"Shape", []⟩]
    members := [
      { name := "area", shape := .method [] [] "number" },
      { name := "cache", shape := .property "string", visibility := .privateAccess,
        isAbstract := true },
      { name := "label", shape := .setter { name := "value" } },
      { name := "label", shape := .getter "string", isAbstract := true }] }

def circle : ClassDecl :=
  { name := "Circle", span := ⟨0, 90⟩, nameSpan := ⟨6, 12⟩, openBrace := 26
    bases := [⟨"Ring", []⟩], members := [{ name := "sides", shape := .property "number" }] }

def shapes : Snapshot :=
  { files := [{ path := ⟨"src/shapes.ts"⟩, classes := [circle, ring, shape] }] }

theorem repairOne_circle :
    (Program.ofSnapshot shapes).findClassAt ⟨"src/shapes.ts"⟩ 8 =
        .ok (.ofDecl ⟨"src/shapes.ts"⟩ circle) ∧
      Heritage shapes "Ring" [ring, shape] ∧
      Heritage.owedNames [ring, shape] circle = ["label", "index"] ∧
      ∃ decl, (Program.ofSnapshot shapes).declAtName? ⟨"src/shapes.ts"⟩ 8 = some decl ∧
        ClassTarget.ofDecl ⟨"src/shapes.ts"⟩ circle = .ofDecl ⟨"src/shapes.ts"⟩ decl ∧
        RepairsExactly [ring, shape] decl ⟨"src/shapes.ts"⟩
          (repairOne (Program.ofSnapshot shapes).typeModel {}
            (.ofDecl ⟨"src/shapes.ts"⟩ circle)) := by
  have found : (Program.ofSnapshot shapes).findClassAt ⟨"src/shapes.ts"⟩ 8 =
      .ok (.ofDecl ⟨"src/shapes.ts"⟩ circle) := by rfl
  have heritage : Heritage shapes "Ring" [ring, shape] :=
    .step rfl rfl rfl (.root rfl rfl rfl)
  exact ⟨found, heritage, by decide +kernel, repairOne_exact shapes {} found rfl heritage⟩

end RepairsExactly

end MemberStubs
