import MemberStubs.Proofs.Absorption.Again
import MemberStubs.Proofs.Absorption.Heirs

/-! What is still owed after edits have been absorbed. The base of a class stays the same, and what
the class owes can only lose members: those that it declares by now, and those in front of which a
new member of an ancestor stands. -/

namespace MemberStubs

/-- A target that declares at least what it declared and is the same in all else. -/
structure ClassTarget.Grown (before after : ClassTarget) : Prop where
  key_eq : after.key = before.key
  name_eq : after.name = before.name
  anchor_eq : after.anchor = before.anchor
  bases_eq : after.bases = before.bases
  declares : ∀ name, before.declares name = true → after.declares name = true

namespace ClassTarget.Grown

variable {before after : ClassTarget}

theorem ofDecl {decl decl' : ClassDecl} (grown : decl.Grown decl') (file : Path) :
    Grown (.ofDecl file decl) (.ofDecl file decl') where
  key_eq := congrArg (fun span : Span => ClassKey.mk file span.start) grown.span_eq
  name_eq := grown.name_eq
  anchor_eq := congrArg Anchor.behindBrace grown.openBrace_eq
  bases_eq := grown.bases_eq
  declares name declared := by
    rw [declares_ofDecl] at declared ⊢
    exact grown.declares declared

theorem fault_eq (grown : Grown before after) : after.fault = before.fault := by
  funext fault
  rw [ClassTarget.fault, ClassTarget.fault, displayName, displayName, grown.key_eq, grown.name_eq]

theorem singleBase_eq (grown : Grown before after) : after.singleBase = before.singleBase := by
  rw [singleBase, singleBase, grown.bases_eq, grown.fault_eq]

end ClassTarget.Grown

/-- What may become of the members that a class owes: the base is the same, and some members may
have gone. A class that could not be resolved fails as it did. -/
inductive Candidates.Reduced :
    Except RepairError Candidates → Except RepairError Candidates → Prop where
  | error (error : RepairError) : Reduced (.error error) (.error error)
  | ok (base : TypeRef) {members members' : List Member} (fewer : members'.Sublist members) :
      Reduced (.ok ⟨base, members⟩) (.ok ⟨base, members'⟩)

theorem Candidates.Reduced.cases {first second : Except RepairError Candidates}
    (reduced : Reduced first second) :
    (∃ error, first = .error error ∧ second = .error error) ∨
      ∃ owed owed', first = .ok owed ∧ second = .ok owed' ∧
        owed'.members.Sublist owed.members := by
  cases reduced with
  | error error => exact Or.inl ⟨error, rfl, rfl⟩
  | ok base fewer => exact Or.inr ⟨_, _, rfl, rfl, fewer⟩

namespace Program.Grown

variable {before after : Program} {target target' : ClassTarget}

theorem findClassAt (grown : Grown before after) (file : Path) (position : UInt64) :
    (∃ error, before.findClassAt file position = .error error ∧
      after.findClassAt file position = .error error) ∨
    ∃ target target', before.findClassAt file position = .ok target ∧
      after.findClassAt file position = .ok target' ∧ target.Grown target' := by
  have pair := grown.declAtName? file position
  rw [Program.findClassAt, Program.findClassAt]
  generalize before.declAtName? file position = decl at pair ⊢
  generalize after.declAtName? file position = decl' at pair ⊢
  cases pair with
  | none => exact Or.inl ⟨_, rfl, rfl⟩
  | some pair => exact Or.inr ⟨_, _, rfl, rfl, .ofDecl pair file⟩

theorem baseType_eq (grown : Grown before after) (targets : target.Grown target') :
    after.baseType target' = before.baseType target := by
  rw [Program.baseType, Program.baseType, targets.singleBase_eq, targets.fault_eq]
  cases target.singleBase with
  | error error => rfl
  | ok base =>
      have parents := grown.lookup? base.name
      simp only [bind, Except.bind]
      generalize before.lookup? base.name = parent at parents ⊢
      generalize after.lookup? base.name = parent' at parents ⊢
      cases parents with
      | none => rfl
      | some parents => simp only [parents.isClass_eq]

/-- Owed is what is abstract, not private and not declared. -/
theorem filter_isOwed (table : MemberTable) (target : ClassTarget) :
    table.members.filter (fun member => member.isOwed && !target.declares member.name) =
      table.leftAbstract.filter fun member =>
        !member.visibility.isPrivate && !target.declares member.name := by
  rw [MemberTable.leftAbstract, List.filter_filter]
  apply List.filter_congr
  intro member _
  rw [Member.isOwed, Bool.and_comm (x := member.isAbstract), Bool.and_right_comm]

theorem candidates (grown : Grown before after) (targets : target.Grown target') :
    Candidates.Reduced (before.typeModel.candidates target)
      (after.typeModel.candidates target') := by
  have sameBase : after.typeModel.baseType target' = before.typeModel.baseType target :=
    grown.baseType_eq targets
  rw [TypeModel.candidates_eq, TypeModel.candidates_eq, targets.singleBase_eq, sameBase]
  cases target.singleBase with
  | error error => exact .error error
  | ok base =>
      cases before.typeModel.baseType target with
      | error error => exact .error error
      | ok type =>
          simp only [typeModel]
          rcases grown.membersOf type with ⟨error, failed, failed'⟩ | ⟨_, _, found, found', tables⟩
          · rw [failed, failed']
            exact .error error
          · rw [found, found']
            refine .ok type ?_
            rw [filter_isOwed, filter_isOwed]
            have stillOwed : ∀ member : Member,
                (!member.visibility.isPrivate && !target'.declares member.name) = true →
                  (!member.visibility.isPrivate && !target.declares member.name) = true := by
              intro member owed
              rw [Bool.and_eq_true, Bool.not_eq_true' (target'.declares _)] at owed
              rw [Bool.and_eq_true, Bool.not_eq_true' (target.declares _)]
              refine ⟨owed.1, Bool.eq_false_iff.mpr fun declared => ?_⟩
              rw [targets.declares member.name declared] at owed
              cases owed.2
            exact (tables.fewer.filter _).trans (List.monotone_filter_right _ stillOwed)

end Program.Grown

/-- What a snapshot becomes when it absorbs edits. Its classes get concrete members at their ends, as
many as are counted, and declare every stub from then on; the same edits once more change nothing. The
index of a program stays right. Every class is found where it was found, and owes what it owed or
less. -/
structure Snapshot.AbsorbsSoundly (snapshot : Snapshot) (edits : EditSet) : Prop where
  grown : Grown snapshot (snapshot.absorb edits).1
  schema_eq : (snapshot.absorb edits).1.schema = snapshot.schema
  declares : ∀ edit ∈ edits.files, (snapshot.absorb edits).1.Declares edit
  counted : (snapshot.absorb edits).1.memberCount =
    snapshot.memberCount + (snapshot.absorb edits).2
  again : (snapshot.absorb edits).1.absorb edits = ((snapshot.absorb edits).1, 0)
  indexed : (Program.ofSnapshot snapshot).absorb edits =
    (Program.ofSnapshot (snapshot.absorb edits).1, (snapshot.absorb edits).2)
  located : ∀ file position,
    (∃ error, (Program.ofSnapshot snapshot).findClassAt file position = .error error ∧
      ((Program.ofSnapshot snapshot).absorb edits).1.findClassAt file position = .error error) ∨
    ∃ target target', (Program.ofSnapshot snapshot).findClassAt file position = .ok target ∧
      ((Program.ofSnapshot snapshot).absorb edits).1.findClassAt file position = .ok target' ∧
      target.Grown target'
  owed : ∀ target target' : ClassTarget, target.Grown target' →
    Candidates.Reduced ((Program.ofSnapshot snapshot).typeModel.candidates target)
      (((Program.ofSnapshot snapshot).absorb edits).1.typeModel.candidates target')

theorem Snapshot.absorb_sound (snapshot : Snapshot) (edits : EditSet) :
    snapshot.AbsorbsSoundly edits := by
  have programs := Program.Grown.absorb (Program.ofSnapshot snapshot) edits
  exact
    { grown := .absorb snapshot edits
      schema_eq := snapshot.schema_absorb edits
      declares := fun _ => snapshot.declares_absorb
      counted := snapshot.memberCount_absorb edits
      again := snapshot.absorb_absorb edits
      indexed := Program.absorb_ofSnapshot snapshot edits
      located := programs.findClassAt
      owed := fun _ _ => programs.candidates }

end MemberStubs
