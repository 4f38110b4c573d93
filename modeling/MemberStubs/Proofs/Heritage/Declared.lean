import MemberStubs.Proofs.Heritage.Chain

/-! How a chain of classes declares a name: the nearest class that has a member of that name
decides, by its first one and by the other half of that one if it is half of an accessor. What is
stored in the table of the chain is declared in this way. -/

namespace MemberStubs

/-- What an heir sees of a declaration. -/
structure Declared where
  isAbstract : Bool
  visibility : Visibility
  /-- Whether a stub can be written for it. -/
  isSupported : Bool
  deriving DecidableEq, Repr

namespace Member

def asDeclared (member : Member) : Declared :=
  ⟨member.isAbstract, member.visibility, member.shape ≠ .unknown⟩

def isGetter (member : Member) : Bool :=
  match member.shape with
  | .getter _ => true
  | _ => false

def isSetter (member : Member) : Bool :=
  match member.shape with
  | .setter _ => true
  | _ => false

def isOtherHalf (first second : Member) : Bool :=
  first.isGetter && second.isSetter || first.isSetter && second.isGetter

/-- Two halves count as one, which is abstract if either is and as visible as the getter. -/
def pairDeclared (first second : Member) : Declared :=
  ⟨first.isAbstract || second.isAbstract,
    if first.isGetter then first.visibility else second.visibility, true⟩

theorem completeWith?_eq_none {first second : Member}
    (apart : first.isOtherHalf second = false) : first.completeWith? second = none := by
  rcases first with ⟨_, firstShape, _, _, _, _⟩
  rcases second with ⟨_, secondShape, _, _, _, _⟩
  cases firstShape <;> cases secondShape <;>
    simp_all [completeWith?, isOtherHalf, isGetter, isSetter]

theorem completeWith?_of_isOtherHalf {first second : Member} (named : first.name = second.name)
    (halves : first.isOtherHalf second = true) :
    ∃ whole, first.completeWith? second = some whole ∧
      whole.asDeclared = first.pairDeclared second := by
  rcases first with ⟨_, firstShape, _, _, _, _⟩
  rcases second with ⟨_, secondShape, _, _, _, _⟩
  cases firstShape <;> cases secondShape <;>
    simp_all [completeWith?, isOtherHalf, isGetter, isSetter, asDeclared, pairDeclared]

/-- Of the later members of a name, the first one that is the other half counts. -/
theorem findSome?_completeWith? {first : Member} {later : List Member}
    (named : ∀ second ∈ later, first.name = second.name) :
    later.findSome? first.completeWith? =
      (later.find? first.isOtherHalf).bind first.completeWith? := by
  induction later with
  | nil => rfl
  | cons second later induction =>
      rw [List.findSome?_cons, List.find?_cons]
      cases halves : first.isOtherHalf second with
      | true =>
          rcases completeWith?_of_isOtherHalf (named second (List.mem_cons_self ..)) halves with
            ⟨whole, completed, _⟩
          simp only [completed, Option.bind_some]
      | false =>
          rw [completeWith?_eq_none halves]
          exact induction fun third member => named third (List.mem_cons_of_mem _ member)

end Member

namespace ClassDecl

/-- How a class itself declares a name. -/
def declaration? (decl : ClassDecl) (name : String) : Option Declared :=
  match decl.members.filter (·.name = name) with
  | [] => none
  | first :: later =>
      some ((later.find? first.isOtherHalf).elim first.asDeclared first.pairDeclared)

theorem map_asDeclared_standing? (decl : ClassDecl) (name : String) :
    (Member.standing? decl.members name).map Member.asDeclared = decl.declaration? name := by
  rw [Member.standing?, declaration?]
  have named : ∀ member ∈ decl.members.filter (·.name = name), member.name = name :=
    fun member kept => by simpa using List.of_mem_filter kept
  cases filtered : decl.members.filter (·.name = name) with
  | nil => rfl
  | cons first later =>
      rw [filtered] at named
      have firstNamed := named first (List.mem_cons_self ..)
      have laterNamed : ∀ second ∈ later, first.name = second.name := fun second member =>
        firstNamed.trans (named second (List.mem_cons_of_mem _ member)).symm
      simp only [Option.map_some, Option.some.injEq, Member.findSome?_completeWith? laterNamed]
      cases found : later.find? first.isOtherHalf with
      | none => rfl
      | some second =>
          rcases Member.completeWith?_of_isOtherHalf
            (laterNamed second (List.mem_of_find?_eq_some found)) (List.find?_some found) with
            ⟨whole, completed, same⟩
          rw [Option.bind_some, completed]
          exact same

end ClassDecl

/-! ## Type arguments

They change texts only, so they leave alone how a name is declared. -/

namespace Substitution

theorem asDeclared_member (substitution : Substitution) (member : Member) :
    (substitution.member member).asDeclared = member.asDeclared := by
  rcases member with ⟨_, shape, _, _, _, _⟩
  cases shape <;> simp [Substitution.member, Member.asDeclared, Substitution.shape]

theorem completeWith?_member (substitution : Substitution) (first second : Member) :
    (substitution.member first).completeWith? (substitution.member second) =
      (first.completeWith? second).map substitution.member := by
  rcases first with ⟨firstName, firstShape, _, _, _, _⟩
  rcases second with ⟨secondName, secondShape, _, _, _, _⟩
  by_cases named : firstName = secondName <;> cases firstShape <;> cases secondShape <;>
    simp [Substitution.member, Member.completeWith?, Substitution.shape, named]

theorem standing?_map_member (substitution : Substitution) (members : List Member)
    (name : String) :
    Member.standing? (members.map substitution.member) name =
      (Member.standing? members name).map substitution.member := by
  rw [Member.standing?, Member.standing?, List.filter_map]
  have kept : (fun member : Member => decide (member.name = name)) ∘ substitution.member =
      fun member => decide (member.name = name) := rfl
  rw [kept]
  cases members.filter (·.name = name) with
  | nil => rfl
  | cons first later =>
      rw [List.map_cons]
      simp only [Option.map_some, Option.some.injEq, List.findSome?_map]
      induction later with
      | nil => rfl
      | cons second later induction =>
          rw [List.findSome?_cons, List.findSome?_cons, Function.comp_apply,
            completeWith?_member]
          cases first.completeWith? second with
          | none => exact induction
          | some whole => rfl

end Substitution

/-! ## Along a chain -/

namespace Heritage

def nearest? (chain : List ClassDecl) (name : String) : Option Declared :=
  chain.findSome? (·.declaration? name)

/-- The names that a chain declares, in the order in which they are first met. -/
def names (chain : List ClassDecl) : List String :=
  (chain.flatMap fun decl => decl.members.map Member.name).eraseDups

end Heritage

namespace Program

theorem names_levelOf (decl : ClassDecl) (type : TypeRef) :
    (levelOf decl type).names = (decl.members.map Member.name).eraseDups := by
  rw [levelOf, MemberTable.names_ofDeclaration, List.map_map]
  rfl

theorem find?_levelOf (decl : ClassDecl) (type : TypeRef) (name : String) :
    (levelOf decl type).find? name =
      (Member.standing? decl.members name).map (substitutionFor decl type).member := by
  rw [levelOf, MemberTable.find?_ofDeclaration, Substitution.standing?_map_member]

theorem indexed_of_mem_levelsAlong {type : TypeRef} {chain : List ClassDecl} :
    ∀ level ∈ levelsAlong type chain, level.Indexed := by
  induction chain generalizing type with
  | nil => simp [levelsAlong]
  | cons decl above induction =>
      intro level member
      rcases List.mem_cons.mp member with rfl | member
      · exact MemberTable.indexed_ofDeclaration _
      · cases bases : decl.bases with
        | nil => simp [bases] at member
        | cons parent others =>
            simp only [bases] at member
            exact induction level member

section

variable {snapshot : Snapshot} {type : TypeRef} {chain : List ClassDecl}

theorem flatMap_names_levelsAlong (heritage : Heritage snapshot type.name chain) :
    (levelsAlong type chain).flatMap MemberTable.names =
      chain.flatMap fun decl => (decl.members.map Member.name).eraseDups := by
  generalize start : type.name = name at heritage
  induction heritage generalizing type with
  | root _ _ noBase => simp [levelsAlong, noBase, names_levelOf]
  | @step name decl parent above _ _ oneBase _ induction =>
      simp [levelsAlong, oneBase, names_levelOf,
        @induction (parentType decl type parent) rfl]

theorem findSome?_levelsAlong (heritage : Heritage snapshot type.name chain) (name : String) :
    ((levelsAlong type chain).findSome? (·.find? name)).map Member.asDeclared =
      Heritage.nearest? chain name := by
  have atLevel : ∀ decl type, ((levelOf decl type).find? name).map Member.asDeclared =
      decl.declaration? name := fun decl type => by
    rw [find?_levelOf, Option.map_map, ← ClassDecl.map_asDeclared_standing?]
    congr 1
    funext member
    exact Substitution.asDeclared_member _ member
  generalize start : type.name = bearer at heritage
  induction heritage generalizing type with
  | @root _ decl _ _ noBase =>
      rw [levelsAlong, noBase, Heritage.nearest?, List.findSome?_cons, List.findSome?_cons,
        ← atLevel decl type]
      cases (levelOf decl type).find? name <;> rfl
  | @step _ decl parent above _ _ oneBase _ induction =>
      have onward := @induction (parentType decl type parent) rfl
      rw [levelsAlong, oneBase, Heritage.nearest?, List.findSome?_cons, List.findSome?_cons,
        ← atLevel decl type]
      cases (levelOf decl type).find? name with
      | none => exact onward
      | some member => rfl

/-- The table of a chain: its names in order, each standing for its nearest declaration. -/
theorem table_of_heritage (heritage : Heritage snapshot type.name chain) :
    ∃ table, (ofSnapshot snapshot).membersOf type = .ok table ∧ table.Indexed ∧
      table.names = Heritage.names chain ∧
      ∀ name, (table.find? name).map Member.asDeclared = Heritage.nearest? chain name := by
  rcases MemberTable.foldl_inherit MemberTable.indexed_empty
    (@indexed_of_mem_levelsAlong type chain) with ⟨indexed, order, lookup⟩
  refine ⟨_, membersOf_of_heritage heritage, indexed, ?_, fun name => ?_⟩
  · rw [order, flatMap_names_levelsAlong heritage, MemberTable.names_empty, List.nil_append,
      eraseDups_flatMap_eraseDups, Heritage.names]
  · rw [lookup, MemberTable.find?_empty, Option.none_or, findSome?_levelsAlong heritage]

end

end Program

end MemberStubs
