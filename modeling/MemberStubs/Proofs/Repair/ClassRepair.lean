import MemberStubs.Repair.ClassRepair

/-! What the parts of a class repair answer: where a class is found, which members it owes, how they
are shared out between stubs and skipped members, and which of three outcomes follows. -/

namespace MemberStubs

/-! ## Declared names -/

theorem mem_insertName {name other : String} {names : List String} :
    other ∈ insertName name names ↔ other = name ∨ other ∈ names := by
  induction names with
  | nil => simp [insertName]
  | cons first names induction =>
      rw [insertName]
      split
      · rw [List.mem_cons]
      · split
        · next same => simp [same]
        · rw [List.mem_cons, induction, List.mem_cons]
          exact or_left_comm

theorem mem_nameSet {name : String} {names : List String} :
    name ∈ nameSet names ↔ name ∈ names := by
  have gathered : ∀ set : List String,
      name ∈ names.foldl (fun set name => insertName name set) set ↔ name ∈ set ∨ name ∈ names := by
    induction names with
    | nil => simp
    | cons first names induction =>
        intro set
        rw [List.foldl_cons, induction, mem_insertName, List.mem_cons]
        rw [or_comm (a := name = first), or_assoc]
  simpa [nameSet] using gathered []

theorem ClassDecl.declares_iff {decl : ClassDecl} {name : String} :
    decl.declares name = true ↔ name ∈ decl.members.map Member.name := by
  simp [declares]

theorem ClassTarget.declares_ofDecl (file : Path) (decl : ClassDecl) (name : String) :
    (ClassTarget.ofDecl file decl).declares name = decl.declares name := by
  rw [Bool.eq_iff_iff, ClassDecl.declares_iff]
  simp only [declares, ofDecl, List.contains_iff_mem, mem_nameSet]

/-! ## Location -/

theorem Program.findClassAt_eq_ok_iff {program : Program} {file : Path} {position : UInt64}
    {target : ClassTarget} :
    program.findClassAt file position = .ok target ↔
      ∃ decl, program.declAtName? file position = some decl ∧ target = .ofDecl file decl := by
  rw [findClassAt]
  cases program.declAtName? file position with
  | none => simp
  | some decl => simp [eq_comm]

/-! ## Candidates -/

theorem ClassTarget.singleBase_of_bases {target : ClassTarget} {base : TypeRef}
    (single : target.bases = [base]) : target.singleBase = .ok base := by
  simp only [singleBase, single]

theorem Program.baseType_of_bases (program : Program) {target : ClassTarget} {base : TypeRef}
    (single : target.bases = [base]) :
    program.baseType target =
      match program.lookup? base.name with
      | some decl =>
          if decl.isClass then .ok base else .error (target.fault (.notAClass base.name))
      | none => .error (target.fault (.unknownBase base.name)) := by
  rw [baseType, target.singleBase_of_bases single]
  rfl

theorem TypeModel.candidates_eq (model : TypeModel) (target : ClassTarget) :
    model.candidates target =
      match target.singleBase with
      | .error error => .error error
      | .ok _ =>
          match model.baseType target with
          | .error error => .error error
          | .ok type =>
              match model.membersOf type with
              | .error error => .error error
              | .ok table => .ok ⟨type, table.members.filter fun member =>
                  member.isOwed && !target.declares member.name⟩ := by
  rw [candidates]
  cases target.singleBase with
  | error error => rfl
  | ok base =>
      cases model.baseType target with
      | error error => rfl
      | ok type =>
          show (model.membersOf type >>= _) = match model.membersOf type with | _ => _
          cases model.membersOf type <;> rfl

theorem TypeModel.candidates_of_bases {model : TypeModel} {target : ClassTarget}
    {base type : TypeRef} {table : MemberTable} (single : target.bases = [base])
    (typed : model.baseType target = .ok type) (members : model.membersOf type = .ok table) :
    model.candidates target = .ok ⟨type, table.members.filter fun member =>
      member.isOwed && !target.declares member.name⟩ := by
  simp only [candidates_eq, target.singleBase_of_bases single, typed, members]

theorem TypeModel.exists_of_candidates {model : TypeModel} {target : ClassTarget}
    {owed : Candidates} (found : model.candidates target = .ok owed) :
    ∃ type table, model.baseType target = .ok type ∧ model.membersOf type = .ok table ∧
      owed = ⟨type, table.members.filter fun member =>
        member.isOwed && !target.declares member.name⟩ := by
  rw [candidates_eq] at found
  split at found
  · cases found
  · split at found
    · cases found
    · next type typed =>
        split at found
        · cases found
        · next table members =>
            cases found
            exact ⟨type, table, typed, members, rfl⟩

/-! ## Stubs and skipped members -/

def Member.isSupported (member : Member) : Bool :=
  member.shape ≠ .unknown

namespace StubStyle

variable (style : StubStyle)

theorem synthesize_of_isSupported {member : Member} (supported : member.isSupported = true) :
    ∃ stub, style.synthesize member = .ok stub ∧ stub.name = member.name := by
  rcases member with ⟨name, shape, _, _, _, _⟩
  cases shape with
  | unknown => simp [Member.isSupported] at supported
  | _ => exact ⟨_, rfl, rfl⟩

theorem synthesize_of_not_isSupported {member : Member} (unsupported : member.isSupported = false) :
    style.synthesize member = .error ⟨member.name, member.shape⟩ := by
  have shape : member.shape = .unknown := by simpa [Member.isSupported] using unsupported
  rw [synthesize, shape]

theorem names_partition (members : List Member) :
    (style.partition members).1.map Stub.name =
        (members.filter Member.isSupported).map Member.name ∧
      (style.partition members).2.map UnsupportedShape.name =
        (members.filter (!·.isSupported)).map Member.name := by
  induction members with
  | nil => exact ⟨rfl, rfl⟩
  | cons member members induction =>
      cases supported : member.isSupported with
      | true =>
          rcases style.synthesize_of_isSupported supported with ⟨stub, synthesized, named⟩
          simp [partition, synthesized, supported, named, induction]
      | false =>
          simp [partition, style.synthesize_of_not_isSupported supported, supported, induction]

theorem partition_stubs_eq_nil_iff (members : List Member) :
    (style.partition members).1 = [] ↔ ∀ member ∈ members, member.isSupported = false := by
  rw [← List.map_eq_nil_iff (f := Stub.name), (style.names_partition members).1,
    List.map_eq_nil_iff, List.filter_eq_nil_iff]
  simp only [Bool.not_eq_true]

end StubStyle

/-! ## Outcomes -/

/-- What a repair answers for the members that are owed. -/
def ClassTarget.outcome (target : ClassTarget) (style : StubStyle) (owed : List Member)
    (triggers : List DiagnosticRef) : Except RepairError (Option ClassEdit) :=
  let shared := style.partition owed
  if owed = [] then .ok none
  else if shared.1 = [] then .error (.noSupportedMembers target.displayName shared.2)
  else .ok (some (target.edit shared.1 shared.2 triggers))

namespace ClassTarget

variable {target : ClassTarget} {style : StubStyle} {owed : List Member}
  {triggers : List DiagnosticRef}

theorem outcome_eq_ok_none_iff : target.outcome style owed triggers = .ok none ↔ owed = [] := by
  rw [outcome]
  split
  · next nothing => simp [nothing]
  · next something => split <;> simp [something]

theorem outcome_eq_ok_some_iff {edit : ClassEdit} :
    target.outcome style owed triggers = .ok (some edit) ↔
      (∃ member ∈ owed, member.isSupported = true) ∧
        edit = target.edit (style.partition owed).1 (style.partition owed).2 triggers := by
  have supported : (∃ member ∈ owed, member.isSupported = true) ↔ (style.partition owed).1 ≠ [] := by
    rw [ne_eq, style.partition_stubs_eq_nil_iff]
    simp
  rw [supported, outcome]
  by_cases nothing : owed = []
  · simp [nothing, StubStyle.partition]
  · rw [if_neg nothing]
    split
    · next none => simp [none]
    · next some => simp [some, eq_comm]

theorem outcome_eq_error_iff {error : RepairError} :
    target.outcome style owed triggers = .error error ↔
      (owed ≠ [] ∧ ∀ member ∈ owed, member.isSupported = false) ∧
        error = .noSupportedMembers target.displayName (style.partition owed).2 := by
  rw [← style.partition_stubs_eq_nil_iff, outcome]
  by_cases nothing : owed = []
  · simp [nothing]
  · rw [if_neg nothing]
    split
    · next none => simp [none, nothing, eq_comm]
    · next some => simp [some]

end ClassTarget

theorem repairClass_of_candidates {model : TypeModel} {target : ClassTarget}
    {candidates : Candidates} (style : StubStyle) (triggers : List DiagnosticRef)
    (found : model.candidates target = .ok candidates) :
    repairClass model style target triggers =
      target.outcome style candidates.members triggers := by
  rw [repairClass, found]
  show (if candidates.members.isEmpty = true then _ else _) = _
  rw [ClassTarget.outcome]
  by_cases nothing : candidates.members = []
  · simp [nothing]
  · rw [if_neg (by simpa using nothing), if_neg nothing]
    rcases style.partition candidates.members with ⟨_ | ⟨stub, stubs⟩, unsupported⟩ <;> rfl

theorem repairClass_of_candidates_error {model : TypeModel} {target : ClassTarget}
    {error : RepairError} (style : StubStyle) (triggers : List DiagnosticRef)
    (failed : model.candidates target = .error error) :
    repairClass model style target triggers = .error error := by
  rw [repairClass, failed]
  rfl

def ClassEdit.withTriggers (edit : ClassEdit) (triggers : List DiagnosticRef) : ClassEdit :=
  { edit with triggers }

/-- The diagnostics that ask for a repair are recorded and change nothing else. -/
theorem repairClass_triggers (model : TypeModel) (style : StubStyle) (target : ClassTarget)
    (triggers : List DiagnosticRef) :
    repairClass model style target triggers =
      (repairClass model style target []).map
        (Option.map fun edit => edit.withTriggers triggers) := by
  cases found : model.candidates target with
  | error error =>
      rw [repairClass_of_candidates_error style _ found, repairClass_of_candidates_error style _ found]
      rfl
  | ok candidates =>
      rw [repairClass_of_candidates style _ found, repairClass_of_candidates style _ found,
        ClassTarget.outcome, ClassTarget.outcome]
      split
      · rfl
      · split <;> rfl

theorem key_of_repairClass {model : TypeModel} {style : StubStyle} {target : ClassTarget}
    {triggers : List DiagnosticRef} {edit : ClassEdit}
    (repaired : repairClass model style target triggers = .ok (some edit)) :
    edit.key = target.key := by
  cases found : model.candidates target with
  | error error =>
      rw [repairClass_of_candidates_error style _ found] at repaired
      cases repaired
  | ok candidates =>
      rw [repairClass_of_candidates style _ found] at repaired
      rw [(ClassTarget.outcome_eq_ok_some_iff.mp repaired).2]
      rfl

/-- The repair of a class within a batch and the repair of the class alone answer the same. -/
theorem repairOne_cases (model : TypeModel) (style : StubStyle) (target : ClassTarget)
    (triggers : List DiagnosticRef) :
    (repairOne model style target = .ok none ∧
      repairClass model style target triggers = .ok none) ∨
    (∃ error, repairOne model style target = .error error ∧
      repairClass model style target triggers = .error error) ∨
    ∃ edit, repairOne model style target =
        .ok (some { files := [{ path := target.key.file, classes := [edit] }] }) ∧
      edit.key = target.key ∧
      repairClass model style target triggers = .ok (some (edit.withTriggers triggers)) := by
  rw [repairClass_triggers, repairOne]
  cases answer : repairClass model style target [] with
  | error error => exact Or.inr (Or.inl ⟨error, rfl, rfl⟩)
  | ok result =>
      cases result with
      | none => exact Or.inl ⟨rfl, rfl⟩
      | some edit => exact Or.inr (Or.inr ⟨edit, rfl, key_of_repairClass answer, rfl⟩)

/-- The edit of a class that is repaired alone brings what the class owes. -/
theorem exists_of_repairOne {model : TypeModel} {style : StubStyle} {target : ClassTarget}
    {path : Path} {edit : ClassEdit}
    (repaired : repairOne model style target =
      .ok (some { files := [{ path, classes := [edit] }] })) :
    ∃ owed, model.candidates target = .ok owed ∧
      (∃ member ∈ owed.members, member.isSupported = true) ∧
      edit = target.edit (style.partition owed.members).1 (style.partition owed.members).2 [] := by
  cases found : model.candidates target with
  | error error =>
      rw [repairOne, repairClass_of_candidates_error style _ found] at repaired
      cases repaired
  | ok owed =>
      refine ⟨owed, rfl, ?_⟩
      rw [repairOne, repairClass_of_candidates style _ found] at repaired
      cases answer : target.outcome style owed.members [] with
      | error error =>
          rw [answer] at repaired
          cases repaired
      | ok result =>
          cases result with
          | none =>
              rw [answer] at repaired
              cases repaired
          | some sole =>
              rw [answer] at repaired
              cases repaired
              exact ClassTarget.outcome_eq_ok_some_iff.mp answer

end MemberStubs
