import MemberStubs.Proofs.Heritage.Chain

/-! The climb from a name, from a class to its base again and again. It has an end on every
snapshot, because no name is passed twice: either a class without a base, or the first thing that
breaks it off. Names, forms and bases alone decide how it ends. -/

namespace MemberStubs

/-- A climb from a name, with the names in `met` behind it: the names that it passes, and what
breaks it off before a class without a base. -/
inductive Climb (snapshot : Snapshot) :
    List String → String → List String → Option HeritageFault → Prop where
  | top {met : List String} {name : String} {decl : ClassDecl}
      (found : snapshot.declared? name = some decl) (fresh : name ∉ met)
      (isClass : decl.isClass = true) (noBase : decl.bases = []) :
      Climb snapshot met name [name] none
  | step {met : List String} {name : String} {decl : ClassDecl} {parent : TypeRef}
      {above : List String} {broken : Option HeritageFault}
      (found : snapshot.declared? name = some decl) (fresh : name ∉ met)
      (isClass : decl.isClass = true) (oneBase : decl.bases = [parent])
      (rest : Climb snapshot (name :: met) parent.name above broken) :
      Climb snapshot met name (name :: above) broken
  | unknown {met : List String} {name : String} (missing : snapshot.declared? name = none) :
      Climb snapshot met name [] (some (.unknownBase name))
  | circular {met : List String} {name : String} {decl : ClassDecl}
      (found : snapshot.declared? name = some decl) (again : name ∈ met) :
      Climb snapshot met name [] (some (.circular name))
  | notAClass {met : List String} {name : String} {decl : ClassDecl}
      (found : snapshot.declared? name = some decl) (fresh : name ∉ met)
      (other : decl.isClass = false) : Climb snapshot met name [] (some (.notAClass name))
  | branching {met : List String} {name : String} {decl : ClassDecl}
      (found : snapshot.declared? name = some decl) (fresh : name ∉ met)
      (isClass : decl.isClass = true) (several : 2 ≤ decl.bases.length) :
      Climb snapshot met name [] (some (.branching name decl.bases.length))

namespace Climb

variable {snapshot : Snapshot} {met : List String} {name : String} {passed : List String}
  {broken : Option HeritageFault}

/-- What a climb does at a name, according to the declaration that the name stands for. -/
theorem cases_of_declared (climb : Climb snapshot met name passed broken) {decl : ClassDecl}
    (found : snapshot.declared? name = some decl) :
    name ∈ met ∧ passed = [] ∧ broken = some (.circular name) ∨
    name ∉ met ∧ decl.isClass = false ∧ passed = [] ∧ broken = some (.notAClass name) ∨
    name ∉ met ∧ decl.isClass = true ∧
      (decl.bases = [] ∧ passed = [name] ∧ broken = none ∨
      (∃ parent above, decl.bases = [parent] ∧ passed = name :: above ∧
        Climb snapshot (name :: met) parent.name above broken) ∨
      2 ≤ decl.bases.length ∧ passed = [] ∧
        broken = some (.branching name decl.bases.length)) := by
  cases climb with
  | top again fresh isClass noBase =>
      cases found.symm.trans again
      exact .inr (.inr ⟨fresh, isClass, .inl ⟨noBase, rfl, rfl⟩⟩)
  | step again fresh isClass oneBase rest =>
      cases found.symm.trans again
      exact .inr (.inr ⟨fresh, isClass, .inr (.inl ⟨_, _, oneBase, rfl, rest⟩)⟩)
  | unknown missing =>
      rw [found] at missing
      cases missing
  | circular _ seen => exact .inl ⟨seen, rfl, rfl⟩
  | notAClass again fresh other =>
      cases found.symm.trans again
      exact .inr (.inl ⟨fresh, other, rfl, rfl⟩)
  | branching again fresh isClass several =>
      cases found.symm.trans again
      exact .inr (.inr ⟨fresh, isClass, .inr (.inr ⟨several, rfl, rfl⟩)⟩)

/-- There is one climb from a name. -/
theorem unique (climb : Climb snapshot met name passed broken) {otherPassed : List String}
    {otherBroken : Option HeritageFault}
    (other : Climb snapshot met name otherPassed otherBroken) :
    passed = otherPassed ∧ broken = otherBroken := by
  induction climb generalizing otherPassed otherBroken with
  | top found fresh isClass noBase =>
      have := other.cases_of_declared found
      simp_all
  | step found fresh isClass oneBase rest induction =>
      rcases other.cases_of_declared found with ⟨again, _⟩ | ⟨_, form, _⟩ | ⟨_, _, ending⟩
      · exact absurd again fresh
      · rw [isClass] at form
        cases form
      · rcases ending with ⟨noBase, _⟩ | ⟨parent, above, same, rfl, onward⟩ | ⟨several, _⟩
        · rw [oneBase] at noBase
          cases noBase
        · rw [oneBase] at same
          cases same
          rcases induction onward with ⟨rfl, rfl⟩
          exact ⟨rfl, rfl⟩
        · simp [oneBase] at several
  | unknown missing =>
      cases other with
      | unknown => exact ⟨rfl, rfl⟩
      | top found | step found | circular found | notAClass found | branching found =>
          rw [missing] at found
          cases found
  | circular found again =>
      have := other.cases_of_declared found
      simp_all
  | notAClass found fresh form =>
      have := other.cases_of_declared found
      simp_all
  | branching found fresh isClass several =>
      rcases other.cases_of_declared found with ⟨again, _⟩ | ⟨_, form, _⟩ | ⟨_, _, ending⟩
      · exact absurd again fresh
      · rw [isClass] at form
        cases form
      · rcases ending with ⟨noBase, _⟩ | ⟨parent, above, oneBase, _⟩ | ⟨_, rfl, rfl⟩
        · simp [noBase] at several
        · simp [oneBase] at several
        · exact ⟨rfl, rfl⟩

end Climb

/-! Two snapshots are alike for a climb if they declare the same names in the same order, with the
same forms and with bases of the same names. -/

def ClassDecl.outline (decl : ClassDecl) : Option String × Bool × List String :=
  (decl.name, decl.isClass, decl.bases.map TypeRef.name)

def Snapshot.Alike (first second : Snapshot) : Prop :=
  first.declarations.map ClassDecl.outline = second.declarations.map ClassDecl.outline

namespace Snapshot.Alike

variable {first second : Snapshot}

theorem symm (alike : first.Alike second) : second.Alike first :=
  Eq.symm alike

theorem map_outline_declared? (alike : first.Alike second) (name : String) :
    (first.declared? name).map ClassDecl.outline =
      (second.declared? name).map ClassDecl.outline := by
  have found := congrArg (List.find? fun outline => outline.1 = some name) alike
  rw [List.find?_map, List.find?_map] at found
  exact found

theorem exists_declared? (alike : first.Alike second) {name : String} {decl : ClassDecl}
    (found : first.declared? name = some decl) :
    ∃ twin, second.declared? name = some twin ∧ decl.isClass = twin.isClass ∧
      decl.bases.map TypeRef.name = twin.bases.map TypeRef.name := by
  have same := alike.map_outline_declared? name
  rw [found, Option.map_some, eq_comm, Option.map_eq_some_iff] at same
  rcases same with ⟨twin, known, outline⟩
  have parts := Prod.mk.inj (Prod.mk.inj outline).2
  exact ⟨twin, known, parts.1.symm, parts.2.symm⟩

theorem climb (alike : first.Alike second) {met : List String} {name : String}
    {passed : List String} {broken : Option HeritageFault}
    (climb : Climb first met name passed broken) : Climb second met name passed broken := by
  induction climb with
  | top found fresh isClass noBase =>
      rcases alike.exists_declared? found with ⟨twin, known, form, bases⟩
      exact .top known fresh (form.symm.trans isClass) (by simpa [noBase] using bases.symm)
  | step found fresh isClass oneBase rest induction =>
      rcases alike.exists_declared? found with ⟨twin, known, form, bases⟩
      rw [oneBase, List.map_singleton, eq_comm, List.map_eq_singleton_iff] at bases
      rcases bases with ⟨other, otherBase, sameName⟩
      rw [← sameName] at induction
      exact .step known fresh (form.symm.trans isClass) otherBase induction
  | @unknown _ name missing =>
      have same := alike.map_outline_declared? name
      rw [missing, Option.map_none, eq_comm, Option.map_eq_none_iff] at same
      exact .unknown same
  | circular found again =>
      rcases alike.exists_declared? found with ⟨twin, known, _⟩
      exact .circular known again
  | notAClass found fresh other =>
      rcases alike.exists_declared? found with ⟨twin, known, form, _⟩
      exact .notAClass known fresh (form.symm.trans other)
  | branching found fresh isClass several =>
      rcases alike.exists_declared? found with ⟨twin, known, form, bases⟩
      have count := congrArg List.length bases
      simp only [List.length_map] at count
      rw [count] at several ⊢
      exact .branching known fresh (form.symm.trans isClass) several

end Snapshot.Alike

namespace Program

theorem nodup_names (program : Program) : program.names.Nodup :=
  Std.HashMap.nodup_keys

/-- The names that a walk can still visit are those that it has not met. -/
def Ahead (snapshot : Snapshot) (unvisited met : List String) : Prop :=
  ∀ name, (snapshot.declared? name).isSome → (name ∈ unvisited ↔ name ∉ met)

theorem Ahead.erase {snapshot : Snapshot} {unvisited met : List String}
    (ahead : Ahead snapshot unvisited met) (distinct : unvisited.Nodup) (name : String) :
    Ahead snapshot (unvisited.erase name) (name :: met) := by
  intro other declared
  rw [distinct.mem_erase_iff, List.mem_cons, not_or, ahead other declared]

/-- A name is declared, and a walk can visit it or has met it. -/
theorem Ahead.found {snapshot : Snapshot} {unvisited met : List String}
    (ahead : Ahead snapshot unvisited met) {name : String} {decl : ClassDecl}
    (found : (ofSnapshot snapshot).lookup? name = some decl) :
    snapshot.declared? name = some decl ∧ (name ∈ unvisited ↔ name ∉ met) := by
  rw [lookup?_ofSnapshot] at found
  exact ⟨found, ahead name (Option.isSome_of_eq_some found)⟩

/-- The walk along the bases of a type takes the climb from its name. Every name that is passed
leaves those that can be visited, so the climb is no longer than their number. -/
theorem exists_climb_of_levelsFrom (snapshot : Snapshot) {unvisited : List String}
    (distinct : unvisited.Nodup) (type : TypeRef) {met : List String}
    (ahead : Ahead snapshot unvisited met) :
    ∃ passed broken, Climb snapshot met type.name passed broken ∧
      passed.length ≤ unvisited.length ∧
      match broken with
      | none => ∃ levels, (ofSnapshot snapshot).levelsFrom unvisited type = .ok levels
      | some fault => (ofSnapshot snapshot).levelsFrom unvisited type = .error fault := by
  fun_induction levelsFrom (ofSnapshot snapshot) unvisited type generalizing met with
  | case1 unvisited type missing =>
      rw [lookup?_ofSnapshot] at missing
      exact ⟨[], _, .unknown missing, Nat.zero_le _, rfl⟩
  | case2 unvisited type decl found visit isClass noBase =>
      rcases ahead.found found with ⟨declared, fresh⟩
      exact ⟨[_], _, .top declared (fresh.mp visit) isClass noBase, List.length_pos_of_mem visit, _,
        rfl⟩
  | case3 unvisited type decl found visit isClass parent oneBase levels walked induction =>
      rcases ahead.found found with ⟨declared, fresh⟩
      have count := List.length_erase_of_mem visit
      have someLeft := List.length_pos_of_mem visit
      rcases induction (distinct.erase _) (ahead.erase distinct _) with
        ⟨above, broken, rest, short, ends⟩
      rw [walked] at ends
      cases broken with
      | none =>
          refine ⟨_, none, .step declared (fresh.mp visit) isClass oneBase rest, ?_, _, rfl⟩
          rw [List.length_cons]
          omega
      | some fault => cases ends
  | case4 unvisited type decl found visit isClass parent oneBase fault walked induction =>
      rcases ahead.found found with ⟨declared, fresh⟩
      have count := List.length_erase_of_mem visit
      have someLeft := List.length_pos_of_mem visit
      rcases induction (distinct.erase _) (ahead.erase distinct _) with
        ⟨above, broken, rest, short, ends⟩
      rw [walked] at ends
      cases broken with
      | none => rcases ends with ⟨levels, ends⟩; cases ends
      | some other =>
          refine ⟨_, some other, .step declared (fresh.mp visit) isClass oneBase rest, ?_, ends⟩
          rw [List.length_cons]
          omega
  | case5 unvisited type decl found visit isClass someBase severalBases =>
      rcases ahead.found found with ⟨declared, fresh⟩
      have several : 2 ≤ decl.bases.length := by
        cases bases : decl.bases with
        | nil => exact (someBase bases).elim
        | cons first others =>
            cases others with
            | nil => exact (severalBases _ bases).elim
            | cons => simp
      exact ⟨[], _, .branching declared (fresh.mp visit) isClass several, Nat.zero_le _, rfl⟩
  | case6 unvisited type decl found visit other =>
      rcases ahead.found found with ⟨declared, fresh⟩
      exact ⟨[], _, .notAClass declared (fresh.mp visit) (Bool.eq_false_iff.mpr other),
        Nat.zero_le _, rfl⟩
  | case7 unvisited type decl found visited =>
      rcases ahead.found found with ⟨declared, fresh⟩
      have again := not_not.mp ((not_congr fresh).mp visited)
      exact ⟨[], _, .circular declared again, Nat.zero_le _, rfl⟩

theorem exists_climb_of_membersOf (snapshot : Snapshot) (type : TypeRef) :
    ∃ passed broken, Climb snapshot [] type.name passed broken ∧
      passed.length ≤ (ofSnapshot snapshot).names.length ∧
      match broken with
      | none => ∃ table, (ofSnapshot snapshot).membersOf type = .ok table
      | some fault =>
          (ofSnapshot snapshot).membersOf type = .error (.unresolvableBase type.text fault) := by
  have ahead : Ahead snapshot (ofSnapshot snapshot).names [] := by
    intro name declared
    rcases Option.isSome_iff_exists.mp declared with ⟨decl, found⟩
    have known := mem_names_of_lookup? ((lookup?_ofSnapshot snapshot name).trans found)
    simp [known]
  rcases exists_climb_of_levelsFrom snapshot (nodup_names _) type ahead with
    ⟨passed, broken, climb, short, ends⟩
  refine ⟨passed, broken, climb, short, ?_⟩
  rw [membersOf]
  cases broken with
  | none =>
      rcases ends with ⟨levels, walked⟩
      rw [walked]
      exact ⟨_, rfl⟩
  | some fault => rw [ends]

theorem exists_table_iff (snapshot : Snapshot) (type : TypeRef) :
    (∃ table, (ofSnapshot snapshot).membersOf type = .ok table) ↔
      ∃ passed, Climb snapshot [] type.name passed none := by
  rcases exists_climb_of_membersOf snapshot type with ⟨passed, broken, climb, _, ends⟩
  cases broken with
  | none => exact ⟨fun _ => ⟨passed, climb⟩, fun _ => ends⟩
  | some fault =>
      constructor
      · rintro ⟨table, answered⟩
        rw [ends] at answered
        cases answered
      · rintro ⟨_, other⟩
        cases (climb.unique other).2

theorem membersOf_eq_error_iff (snapshot : Snapshot) (type : TypeRef) (error : RepairError) :
    (ofSnapshot snapshot).membersOf type = .error error ↔
      ∃ passed fault, Climb snapshot [] type.name passed (some fault) ∧
        error = .unresolvableBase type.text fault := by
  rcases exists_climb_of_membersOf snapshot type with ⟨passed, broken, climb, _, ends⟩
  cases broken with
  | none =>
      rcases ends with ⟨table, answered⟩
      rw [answered]
      constructor
      · intro refused
        cases refused
      · rintro ⟨_, _, other, _⟩
        cases (climb.unique other).2
  | some fault =>
      rw [ends, Except.error.injEq]
      constructor
      · rintro rfl
        exact ⟨passed, fault, climb, rfl⟩
      · rintro ⟨_, _, other, rfl⟩
        cases (climb.unique other).2
        rfl

/-- A circle that is entered from outside: the third class extends the second one again. -/
example : (ofSnapshot { externals := [
      { name := "A", bases := [⟨"B", []⟩] },
      { name := "B", bases := [⟨"C", []⟩] },
      { name := "C", bases := [⟨"B", []⟩] }] }).membersOf ⟨"A", []⟩ =
    .error (.unresolvableBase "A" (.circular "B")) :=
  (membersOf_eq_error_iff ..).mpr ⟨["A", "B", "C"], _,
    .step rfl (by decide) rfl rfl (.step rfl (by decide) rfl rfl
      (.step rfl (by decide) rfl rfl (.circular rfl (by decide)))), rfl⟩

/-- What becomes of a question for the members of a type. -/
structure SettledByClimb (snapshot : Snapshot) (type : TypeRef) : Prop where
  /-- The climb has an end, and passes no more names than there are. -/
  ends : ∃ passed broken, Climb snapshot [] type.name passed broken ∧
    passed.length ≤ (ofSnapshot snapshot).names.length
  answers_iff : (∃ table, (ofSnapshot snapshot).membersOf type = .ok table) ↔
    ∃ passed, Climb snapshot [] type.name passed none
  refuses_iff : ∀ error, (ofSnapshot snapshot).membersOf type = .error error ↔
    ∃ passed fault, Climb snapshot [] type.name passed (some fault) ∧
      error = .unresolvableBase type.text fault
  /-- Neither type arguments nor members decide between the two. -/
  alike : ∀ (other : Snapshot) (otherType : TypeRef), snapshot.Alike other →
    otherType.name = type.name →
      ((∃ table, (ofSnapshot snapshot).membersOf type = .ok table) ↔
        ∃ table, (ofSnapshot other).membersOf otherType = .ok table)

theorem membersOf_settledByClimb (snapshot : Snapshot) (type : TypeRef) :
    SettledByClimb snapshot type where
  ends :=
    have ⟨passed, broken, climb, short, _⟩ := exists_climb_of_membersOf snapshot type
    ⟨passed, broken, climb, short⟩
  answers_iff := exists_table_iff snapshot type
  refuses_iff := membersOf_eq_error_iff snapshot type
  alike other otherType alike named := by
    rw [exists_table_iff, exists_table_iff, named]
    exact ⟨fun ⟨passed, climb⟩ => ⟨passed, alike.climb climb⟩,
      fun ⟨passed, climb⟩ => ⟨passed, alike.symm.climb climb⟩⟩

end Program

end MemberStubs
