import MemberStubs.Proofs.Absorption.Growth
import MemberStubs.Proofs.Heritage.Instantiation
import MemberStubs.Proofs.MemberTable.Abstract
import MemberStubs.Proofs.Repair.ClassRepair

/-! Growth as heirs see it. A class that has grown hides no name that it had and adds only concrete
members, so what its heirs still see as abstract they have seen before, and in the same order. A walk
up a chain ends as before. -/

namespace MemberStubs

/-! ## What stands for a name -/

theorem Member.isAbstract_completeWith? {first second whole : Member}
    (completed : first.completeWith? second = some whole) :
    whole.isAbstract = (first.isAbstract || second.isAbstract) := by
  unfold completeWith? at completed
  split at completed
  · cases completed
  · simp only at completed
    split at completed <;> cases completed <;> rfl

/-- Concrete members stand for nothing abstract. -/
theorem Member.isAbstract_standing? {members : List Member} {name : String} {member : Member}
    (concrete : ∀ member ∈ members, member.isAbstract = false)
    (stands : Member.standing? members name = some member) : member.isAbstract = false := by
  rw [standing?] at stands
  have kept : ∀ member ∈ members.filter (·.name = name), member.isAbstract = false :=
    fun member present => concrete member (List.mem_of_mem_filter present)
  split at stands
  · cases stands
  · next first later found =>
      rw [found] at kept
      have firstConcrete := kept first (List.mem_cons_self ..)
      cases completed : later.findSome? first.completeWith? with
      | none =>
          rw [completed, Option.getD_none] at stands
          cases stands
          exact firstConcrete
      | some whole =>
          rw [completed, Option.getD_some] at stands
          cases stands
          rcases List.exists_of_findSome?_eq_some completed with ⟨second, present, answer⟩
          rw [isAbstract_completeWith? answer, firstConcrete,
            kept second (List.mem_cons_of_mem _ present)]
          rfl

/-- A declared name keeps what stands for it; a new name is answered by the new members. -/
theorem Member.standing?_append {members added : List Member}
    (new : ∀ member ∈ added, member.name ∉ members.map Member.name) (name : String) :
    standing? (members ++ added) name =
      (standing? members name).or (standing? added name) := by
  rw [standing?, standing?, List.filter_append]
  cases known : members.filter (·.name = name) with
  | nil => rfl
  | cons first later =>
      have nothing : added.filter (·.name = name) = [] := by
        apply List.filter_eq_nil_iff.mpr
        intro member present named
        have firstNamed := List.of_mem_filter (known ▸ List.mem_cons_self .. : first ∈ _)
        have firstPresent := List.mem_of_mem_filter (known ▸ List.mem_cons_self .. : first ∈ _)
        simp only [decide_eq_true_eq] at named firstNamed
        exact new member present (List.mem_map.mpr ⟨first, firstPresent, firstNamed.trans named.symm⟩)
      rw [nothing, List.append_nil]
      rfl

/-! ## Levels -/

theorem Program.indexed_levelOf (decl : ClassDecl) (type : TypeRef) :
    (levelOf decl type).Indexed :=
  MemberTable.indexed_ofDeclaration _

/-- In the level of a class that has grown the new members answer for new names only. -/
theorem Program.find?_levelOf_append {decl : ClassDecl} {added : List Member}
    (new : ∀ member ∈ added, decl.declares member.name = false) (type : TypeRef) (name : String) :
    (levelOf { decl with members := decl.members ++ added } type).find? name =
      ((Member.standing? decl.members name).or (Member.standing? added name)).map
        (substitutionFor decl type).member := by
  have fresh : ∀ member ∈ added, member.name ∉ decl.members.map Member.name := by
    intro member present declared
    have known := ClassDecl.declares_iff.mpr declared
    rw [new member present] at known
    cases known
  rw [find?_levelOf, Member.standing?_append fresh]
  rfl

/-- A declaration that has grown leaves abstract precisely what it left abstract. -/
theorem Program.leftAbstract_levelOf {decl grown : ClassDecl} (growth : decl.Grown grown)
    (type : TypeRef) : (levelOf grown type).leftAbstract = (levelOf decl type).leftAbstract := by
  rcases growth with ⟨added, rfl, new⟩
  have found := find?_levelOf_append (fun member present => (new member present).2) type
  have kept : ∀ name ∈ (decl.members.map Member.name).eraseDups,
      ((levelOf { decl with members := decl.members ++ added } type).find? name).filter
        Member.isAbstract = ((levelOf decl type).find? name).filter Member.isAbstract := by
    intro name declared
    cases known : Member.standing? decl.members name with
    | none =>
        exact absurd (List.mem_eraseDups.mp declared) (Member.standing?_eq_none_iff.mp known)
    | some member => rw [found, find?_levelOf, known, Option.some_or]
  have gone : ((added.map Member.name).removeAll (decl.members.map Member.name)).eraseDups.filterMap
      (fun name => ((levelOf { decl with members := decl.members ++ added } type).find? name).filter
        Member.isAbstract) = [] := by
    refine List.filterMap_eq_nil_iff.mpr fun name arrived => ?_
    have undeclared : name ∉ decl.members.map Member.name := by
      simpa using (List.mem_filter.mp (List.mem_eraseDups.mp arrived)).2
    rw [found, Member.standing?_eq_none_iff.mpr undeclared, Option.none_or]
    cases standing : Member.standing? added name with
    | none => rfl
    | some member =>
        have concrete := Member.isAbstract_standing? (fun member present => (new member present).1)
          standing
        simp [Substitution.member, concrete]
  rw [(indexed_levelOf _ type).leftAbstract_eq, names_levelOf, List.map_append,
    List.eraseDups_append, List.filterMap_append, List.filterMap_congr kept, gone, List.append_nil,
    (indexed_levelOf decl type).leftAbstract_eq, names_levelOf]

theorem MemberTable.Grown.levelOf {decl grown : ClassDecl} (growth : decl.Grown grown)
    (type : TypeRef) : Grown (Program.levelOf decl type) (Program.levelOf grown type) where
  indexed := Program.indexed_levelOf decl type
  indexed' := Program.indexed_levelOf grown type
  names_subset name := by
    rcases growth with ⟨added, rfl, _⟩
    rw [Program.names_levelOf, Program.names_levelOf, List.mem_eraseDups, List.mem_eraseDups,
      List.map_append, List.mem_append]
    exact Or.inl
  fewer := by rw [Program.leftAbstract_levelOf growth type]

/-! ## Chains -/

theorem ClassDecl.Grown.parentType_eq {decl decl' : ClassDecl} (pair : decl.Grown decl')
    (type parent : TypeRef) : Program.parentType decl' type parent = Program.parentType decl type parent := by
  rcases pair with ⟨_, rfl, _⟩
  rfl

namespace Program.Grown

variable {before after : Program}

theorem exists_lookup? (grown : Grown before after) {name : String} {decl : ClassDecl}
    (found : before.lookup? name = some decl) :
    ∃ decl', after.lookup? name = some decl' ∧ decl.Grown decl' := by
  have pair := grown.lookup? name
  rw [found] at pair
  generalize after.lookup? name = known at pair
  cases pair with
  | @some _ decl' pair => exact ⟨decl', rfl, pair⟩

/-- A walk up a chain ends as before, at the same fault or with levels that have grown. -/
theorem levelsFrom (grown : Grown before after) (unvisited : List String) (type : TypeRef) :
    (∃ fault, before.levelsFrom unvisited type = .error fault ∧
      after.levelsFrom unvisited type = .error fault) ∨
    ∃ levels levels', before.levelsFrom unvisited type = .ok levels ∧
      after.levelsFrom unvisited type = .ok levels' ∧
      List.Forall₂ MemberTable.Grown levels levels' := by
  fun_induction Program.levelsFrom before unvisited type with
  | case1 unvisited type missing =>
      refine Or.inl ⟨_, rfl, ?_⟩
      have pair := grown.lookup? type.name
      rw [missing] at pair
      generalize known : after.lookup? type.name = found at pair
      cases pair
      rw [Program.levelsFrom, known]
  | case2 unvisited type decl found visit isClass noBase =>
      rcases grown.exists_lookup? found with ⟨decl', known, pair⟩
      refine Or.inr ⟨_, [levelOf decl' type], rfl, ?_, .cons (.levelOf pair type) .nil⟩
      rw [Program.levelsFrom, known]
      simp [visit, pair.isClass_eq, isClass, pair.bases_eq, noBase]
  | case3 unvisited type decl found visit isClass parent oneBase above onward induction =>
      rcases grown.exists_lookup? found with ⟨decl', known, pair⟩
      rcases induction with ⟨_, ends, _⟩ | ⟨_, above', ends, ends', pairs⟩
      · rw [onward] at ends
        cases ends
      · cases onward.symm.trans ends
        refine Or.inr ⟨_, levelOf decl' type :: above', rfl, ?_, .cons (.levelOf pair type) pairs⟩
        rw [Program.levelsFrom, known]
        simp [visit, pair.isClass_eq, isClass, pair.bases_eq, oneBase, pair.parentType_eq, ends']
  | case4 unvisited type decl found visit isClass parent oneBase fault onward induction =>
      rcases grown.exists_lookup? found with ⟨decl', known, pair⟩
      rcases induction with ⟨fault', ends, ends'⟩ | ⟨_, _, ends, _⟩
      · cases onward.symm.trans ends
        refine Or.inl ⟨_, rfl, ?_⟩
        rw [Program.levelsFrom, known]
        simp [visit, pair.isClass_eq, isClass, pair.bases_eq, oneBase, pair.parentType_eq, ends']
      · rw [onward] at ends
        cases ends
  | case5 unvisited type decl found visit isClass someBase severalBases =>
      rcases grown.exists_lookup? found with ⟨decl', known, pair⟩
      refine Or.inl ⟨_, rfl, ?_⟩
      rw [Program.levelsFrom, known]
      simp only [visit, pair.isClass_eq, isClass, pair.bases_eq, if_true, dif_pos]
  | case6 unvisited type decl found visit noClass =>
      rcases grown.exists_lookup? found with ⟨decl', known, pair⟩
      refine Or.inl ⟨_, rfl, ?_⟩
      rw [Program.levelsFrom, known]
      simp [visit, pair.isClass_eq, noClass]
  | case7 unvisited type decl found again =>
      rcases grown.exists_lookup? found with ⟨decl', known, pair⟩
      refine Or.inl ⟨_, rfl, ?_⟩
      rw [Program.levelsFrom, known]
      simp [again]

theorem membersOf (grown : Grown before after) (type : TypeRef) :
    (∃ error, before.membersOf type = .error error ∧ after.membersOf type = .error error) ∨
    ∃ table table', before.membersOf type = .ok table ∧ after.membersOf type = .ok table' ∧
      table.Grown table' := by
  rw [Program.membersOf, Program.membersOf, grown.names_eq]
  rcases grown.levelsFrom before.names type with ⟨_, ends, ends'⟩ | ⟨_, _, ends, ends', pairs⟩
  · rw [ends, ends']
    exact Or.inl ⟨_, rfl, rfl⟩
  · rw [ends, ends']
    exact Or.inr ⟨_, _, rfl, rfl, .foldl_inherit pairs .refl_empty⟩

end Program.Grown

end MemberStubs
