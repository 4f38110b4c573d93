import MemberStubs.Proofs.Heritage.Lookup
import MemberStubs.Proofs.MemberTable.Levels

/-! The chain of a name: the class it stands for, the class that one extends, and so on to a class
without a base. A chain never meets a name twice, so the walk along it needs every name once. -/

namespace MemberStubs

inductive Heritage (snapshot : Snapshot) : String → List ClassDecl → Prop where
  | root {name : String} {decl : ClassDecl} (found : snapshot.declared? name = some decl)
      (isClass : decl.isClass = true) (noBase : decl.bases = []) :
      Heritage snapshot name [decl]
  | step {name : String} {decl : ClassDecl} {parent : TypeRef} {above : List ClassDecl}
      (found : snapshot.declared? name = some decl) (isClass : decl.isClass = true)
      (oneBase : decl.bases = [parent]) (rest : Heritage snapshot parent.name above) :
      Heritage snapshot name (decl :: above)

namespace Heritage

variable {snapshot : Snapshot} {name : String} {chain other : List ClassDecl}

theorem unique (heritage : Heritage snapshot name chain)
    (another : Heritage snapshot name other) : chain = other := by
  induction heritage generalizing other with
  | root found _ noBase =>
      cases another with
      | root again => rw [Option.some.inj (found.symm.trans again)]
      | step again _ oneBase =>
          rw [← Option.some.inj (found.symm.trans again), noBase] at oneBase
          cases oneBase
  | step found _ oneBase _ induction =>
      cases another with
      | root again _ noBase =>
          rw [← Option.some.inj (found.symm.trans again), oneBase] at noBase
          cases noBase
      | step again _ otherBase rest =>
          have same := Option.some.inj (found.symm.trans again)
          subst same
          cases oneBase.symm.trans otherBase
          rw [induction rest]

/-- The chain of a name that is met on the way is not longer. -/
theorem exists_of_mem (heritage : Heritage snapshot name chain) {decl : ClassDecl}
    (member : decl ∈ chain) :
    ∃ bearer inner, decl.name = some bearer ∧ Heritage snapshot bearer inner ∧
      inner.length ≤ chain.length := by
  induction heritage with
  | root found isClass noBase =>
      rw [List.mem_singleton] at member
      subst member
      exact ⟨_, _, Snapshot.name_of_declared? found, .root found isClass noBase, Nat.le_refl _⟩
  | step found isClass oneBase rest induction =>
      rcases List.mem_cons.mp member with rfl | member
      · exact ⟨_, _, Snapshot.name_of_declared? found, .step found isClass oneBase rest,
          Nat.le_refl _⟩
      · rcases induction member with ⟨bearer, inner, named, onward, short⟩
        exact ⟨bearer, inner, named, onward, Nat.le_succ_of_le short⟩

/-- A name that came back would have a chain longer than itself. -/
theorem name_ne_of_mem_above {decl : ClassDecl} {above : List ClassDecl}
    (heritage : Heritage snapshot name (decl :: above)) {parent : String}
    (rest : Heritage snapshot parent above) {later : ClassDecl} (member : later ∈ above) :
    later.name ≠ some name := by
  intro back
  rcases rest.exists_of_mem member with ⟨bearer, inner, named, onward, short⟩
  have same : bearer = name := Option.some.inj (named.symm.trans back)
  subst same
  have whole := heritage.unique onward
  rw [← whole, List.length_cons] at short
  omega

end Heritage

namespace Program

/-- The levels of the members along a chain, the type arguments handed up from class to class. -/
def levelsAlong (type : TypeRef) : List ClassDecl → List MemberTable
  | [] => []
  | decl :: above =>
      levelOf decl type :: match decl.bases with
        | [] => []
        | parent :: _ => levelsAlong (parentType decl type parent) above

theorem levelsFrom_of_heritage {snapshot : Snapshot} {type : TypeRef} {chain : List ClassDecl}
    (heritage : Heritage snapshot type.name chain) {unvisited : List String}
    (ahead : ∀ decl ∈ chain, ∀ name, decl.name = some name → name ∈ unvisited) :
    (ofSnapshot snapshot).levelsFrom unvisited type = .ok (levelsAlong type chain) := by
  generalize start : type.name = name at heritage
  induction heritage generalizing type unvisited with
  | root found isClass noBase =>
      subst start
      have visit := ahead _ (List.mem_singleton_self _) _ (Snapshot.name_of_declared? found)
      rw [levelsFrom, lookup?_ofSnapshot, found]
      simp [visit, isClass, noBase, levelsAlong]
  | @step name decl parent above found isClass oneBase rest induction =>
      subst start
      have visit := ahead _ (List.mem_cons_self ..) _ (Snapshot.name_of_declared? found)
      have onward := @induction (parentType decl type parent) (unvisited.erase type.name)
        (fun later member bearer named => by
          have different : bearer ≠ type.name := by
            rintro rfl
            exact (Heritage.step found isClass oneBase rest).name_ne_of_mem_above rest member named
          exact (List.mem_erase_of_ne different).mpr
            (ahead later (List.mem_cons_of_mem _ member) bearer named)) rfl
      rw [levelsFrom, lookup?_ofSnapshot, found]
      simp [visit, isClass, oneBase, levelsAlong, onward]

/-- Along a chain that ends, the walk collects every level. -/
theorem membersOf_of_heritage {snapshot : Snapshot} {type : TypeRef} {chain : List ClassDecl}
    (heritage : Heritage snapshot type.name chain) :
    (ofSnapshot snapshot).membersOf type =
      .ok ((levelsAlong type chain).foldl MemberTable.inherit .empty) := by
  have levels := @levelsFrom_of_heritage _ _ _ heritage (ofSnapshot snapshot).names
    fun decl member name named => by
      rcases heritage.exists_of_mem member with ⟨bearer, inner, called, onward, _⟩
      have same : bearer = name := Option.some.inj (called.symm.trans named)
      subst same
      cases onward with
      | root found => exact mem_names_of_lookup? ((lookup?_ofSnapshot ..).trans found)
      | step found => exact mem_names_of_lookup? ((lookup?_ofSnapshot ..).trans found)
  rw [membersOf, levels]

/-- A walk that collects its levels has followed a chain to its end. -/
theorem heritage_of_levelsFrom {snapshot : Snapshot} {unvisited : List String} {type : TypeRef}
    {levels : List MemberTable}
    (collected : (ofSnapshot snapshot).levelsFrom unvisited type = .ok levels) :
    ∃ chain, Heritage snapshot type.name chain := by
  fun_induction levelsFrom (ofSnapshot snapshot) unvisited type generalizing levels with
  | case2 unvisited type decl found visit isClass noBase =>
      rw [lookup?_ofSnapshot] at found
      exact ⟨_, .root found isClass noBase⟩
  | case3 unvisited type decl found visit isClass parent oneBase above walked induction =>
      rw [lookup?_ofSnapshot] at found
      rcases induction walked with ⟨chain, rest⟩
      exact ⟨_, .step found isClass oneBase rest⟩
  | _ => cases collected

theorem heritage_of_membersOf {snapshot : Snapshot} {type : TypeRef} {table : MemberTable}
    (answered : (ofSnapshot snapshot).membersOf type = .ok table) :
    ∃ chain, Heritage snapshot type.name chain := by
  rw [membersOf] at answered
  cases walked : (ofSnapshot snapshot).levelsFrom (ofSnapshot snapshot).names type with
  | ok levels => exact heritage_of_levelsFrom walked
  | error fault =>
      rw [walked] at answered
      cases answered

end Program

end MemberStubs
