import MemberStubs.Proofs.Heritage.Declared

/-! The members of a type with type arguments. The arguments are handed up from class to class, and
each class brings in its members with what it was handed in place. The main statement says what the
table of the type holds: every name on the way up once, the names of nearer classes first, and for
each name what the nearest class that has it makes of it. -/

namespace MemberStubs

/-- A class on the way up from a type, with what stands there for its type parameters. -/
structure Level where
  decl : ClassDecl
  substitution : Substitution

namespace Level

/-- The level of a declaration that is given type arguments. -/
def ofArguments (decl : ClassDecl) (arguments : List String) : Level :=
  ⟨decl, .bind decl.typeParameters arguments⟩

def names (level : Level) : List String :=
  level.decl.members.map Member.name

def members (level : Level) : List Member :=
  level.decl.members.map level.substitution.member

/-- The base of a class, as it is to be read on this level. -/
def base (level : Level) (parent : TypeRef) : TypeRef :=
  { name := parent.name, arguments := parent.arguments.map level.substitution.apply }

end Level

/-- The levels of a type, from the declaration of its name to one without a base. -/
inductive Instantiated (snapshot : Snapshot) : TypeRef → List Level → Prop where
  | root {type : TypeRef} {decl : ClassDecl} (found : snapshot.declared? type.name = some decl)
      (noBase : decl.bases = []) :
      Instantiated snapshot type [.ofArguments decl type.arguments]
  | step {type : TypeRef} {decl : ClassDecl} {parent : TypeRef} {above : List Level}
      (found : snapshot.declared? type.name = some decl) (oneBase : decl.bases = [parent])
      (rest : Instantiated snapshot ((Level.ofArguments decl type.arguments).base parent) above) :
      Instantiated snapshot type (.ofArguments decl type.arguments :: above)

namespace Member

/-- What a list of declared members makes of the name of a member: the first one of that name, or the
pair of it with the first later one that is its other half. -/
def StandsIn (whole : Member) (members : List Member) : Prop :=
  ∃ first later, members.filter (·.name = whole.name) = first :: later ∧
    match later.find? first.isOtherHalf with
    | none => whole = first
    | some second => whole.IsPairOf first second

theorem standsIn_of_standing? {members : List Member} {name : String} {whole : Member}
    (standing : standing? members name = some whole) :
    whole.name = name ∧ whole.StandsIn members := by
  have named : ∀ member ∈ members.filter (·.name = name), member.name = name :=
    fun member kept => by simpa using List.of_mem_filter kept
  rw [standing?] at standing
  cases filtered : members.filter (·.name = name) with
  | nil =>
      rw [filtered] at standing
      cases standing
  | cons first later =>
      rw [filtered] at standing named
      have firstNamed := named first (List.mem_cons_self ..)
      have laterNamed : ∀ second ∈ later, first.name = second.name := fun second member =>
        firstNamed.trans (named second (List.mem_cons_of_mem _ member)).symm
      rw [Option.some.injEq, findSome?_completeWith? laterNamed] at standing
      cases found : later.find? first.isOtherHalf with
      | none =>
          rw [found, Option.bind_none, Option.getD_none] at standing
          subst standing
          exact ⟨firstNamed, first, later, by simpa only [firstNamed] using filtered,
            by rw [found]⟩
      | some second =>
          rcases completeWith?_of_isOtherHalf
            (laterNamed second (List.mem_of_find?_eq_some found)) (List.find?_some found) with
            ⟨pair, completed, _⟩
          rw [found, Option.bind_some, completed, Option.getD_some] at standing
          subst standing
          have isPair := isPairOf_of_completeWith? completed
          have pairNamed := isPair.name.trans firstNamed
          exact ⟨pairNamed, first, later, by simpa only [pairNamed] using filtered,
            by rw [found]; exact isPair⟩

theorem standing?_eq_none_iff {members : List Member} {name : String} :
    standing? members name = none ↔ name ∉ members.map Member.name := by
  have absent : members.filter (·.name = name) = [] ↔ name ∉ members.map Member.name := by
    simp [List.filter_eq_nil_iff]
  rw [← absent, standing?]
  cases members.filter (·.name = name) <;> simp

end Member

/-- What the table of a type holds whose levels are given. -/
structure MemberTable.Instantiates (table : MemberTable) (levels : List Level) : Prop where
  indexed : table.Indexed
  names : table.names = (levels.flatMap Level.names).eraseDups
  distinct : table.names.Nodup
  nearest : ∀ member ∈ table.members, ∃ nearer level farther,
    levels = nearer ++ level :: farther ∧ (∀ other ∈ nearer, member.name ∉ other.names) ∧
      member.StandsIn level.members

namespace Level

def table (level : Level) : MemberTable :=
  .ofDeclaration level.members

theorem map_name_members (level : Level) : level.members.map Member.name = level.names := by
  rw [members, List.map_map]
  rfl

theorem names_table (level : Level) : level.table.names = level.names.eraseDups := by
  rw [table, MemberTable.names_ofDeclaration, map_name_members]

theorem find?_table (level : Level) (name : String) :
    level.table.find? name = Member.standing? level.members name := by
  rw [table, MemberTable.find?_ofDeclaration]

/-- The levels of a type are those that the walk along its chain collects. -/
theorem exists_instantiated {snapshot : Snapshot} {type : TypeRef} {chain : List ClassDecl}
    (heritage : Heritage snapshot type.name chain) :
    ∃ levels, Instantiated snapshot type levels ∧
      Program.levelsAlong type chain = levels.map table := by
  generalize start : type.name = name at heritage
  induction heritage generalizing type with
  | @root _ decl found _ noBase =>
      subst start
      refine ⟨_, .root found noBase, ?_⟩
      rw [Program.levelsAlong, noBase]
      rfl
  | @step _ decl parent above found _ oneBase _ induction =>
      subst start
      rcases @induction ((ofArguments decl type.arguments).base parent) rfl with
        ⟨levels, instantiated, collected⟩
      refine ⟨_, .step found oneBase instantiated, ?_⟩
      rw [Program.levelsAlong, oneBase, List.map_cons, ← collected]
      rfl

end Level

theorem MemberTable.instantiates_foldl_inherit (levels : List Level) :
    ((levels.map Level.table).foldl inherit empty).Instantiates levels := by
  have indexed : ∀ table ∈ levels.map Level.table, table.Indexed := by
    intro table member
    rcases List.mem_map.mp member with ⟨level, _, rfl⟩
    exact indexed_ofDeclaration _
  rcases foldl_inherit indexed_empty indexed with ⟨whole, order, lookup⟩
  refine ⟨whole, ?_, whole.nodup_names, fun member stored => ?_⟩
  · have names : (levels.map Level.table).flatMap MemberTable.names =
        levels.flatMap fun level => level.names.eraseDups := by
      rw [List.flatMap_map]
      exact List.flatMap_congr fun level _ => level.names_table
    rw [order, names_empty, List.nil_append, names, eraseDups_flatMap_eraseDups]
  · have found := whole.find?_eq_some_iff.mpr ⟨stored, rfl⟩
    rw [lookup, find?_empty, Option.none_or, List.findSome?_map] at found
    rcases List.findSome?_eq_some_iff.mp found with ⟨nearer, level, farther, split, brings, none⟩
    refine ⟨nearer, level, farther, split, fun other member' => ?_, ?_⟩
    · have nothing := none other member'
      rw [Function.comp_apply, Level.find?_table, Member.standing?_eq_none_iff,
        Level.map_name_members] at nothing
      exact nothing
    · rw [Function.comp_apply, Level.find?_table] at brings
      exact (Member.standsIn_of_standing? brings).2

theorem Program.membersOf_instantiates (snapshot : Snapshot) {type : TypeRef} {table : MemberTable}
    (answered : (ofSnapshot snapshot).membersOf type = .ok table) :
    ∃ levels, Instantiated snapshot type levels ∧ table.Instantiates levels := by
  rcases heritage_of_membersOf answered with ⟨chain, heritage⟩
  rcases Level.exists_instantiated heritage with ⟨levels, instantiated, collected⟩
  have whole := membersOf_of_heritage heritage
  rw [answered, collected] at whole
  cases whole
  exact ⟨levels, instantiated, MemberTable.instantiates_foldl_inherit levels⟩

/-! A shelf of notes below a store with a default for its second type parameter. The shelf overloads
what the store declares once, and the halves of its label stand apart. -/

namespace Instantiated

def store : ClassDecl :=
  { name := "Store", isAbstract := true
    typeParameters := [⟨"K", none, none⟩, ⟨"V", none, some "K[]"⟩]
    members := [
      { name := "find", shape := .method [] [⟨"key", "K", false, false⟩] "V", isAbstract := true },
      { name := "label", shape := .getter "string", isAbstract := true },
      { name := "all", shape := .property "V", isAbstract := true }] }

def shelf : ClassDecl :=
  { name := "Shelf", isAbstract := true, typeParameters := [⟨"T", none, none⟩]
    bases := [⟨"Store", ["T | null"]⟩]
    members := [
      { name := "label", shape := .setter ⟨"value", "T", false, false⟩ },
      { name := "find", shape := .method [] [⟨"key", "T", false, false⟩] "T", isAbstract := true },
      { name := "find", shape := .method [] [] "T[]" },
      { name := "label", shape := .getter "T", visibility := .protectedAccess,
        isAbstract := true }] }

def notes : Snapshot :=
  { files := [{ path := ⟨"src/notes.ts"⟩, classes := [shelf] }], externals := [store] }

theorem membersOf_notes :
    ∃ table levels, (Program.ofSnapshot notes).membersOf ⟨"Shelf", ["Note"]⟩ = .ok table ∧
      Instantiated notes ⟨"Shelf", ["Note"]⟩ levels ∧ table.Instantiates levels ∧
      table.names = ["label", "find", "all"] := by
  have heritage : Heritage notes "Shelf" [shelf, store] :=
    .step rfl rfl rfl (.root rfl rfl rfl)
  rcases @Program.table_of_heritage _ ⟨"Shelf", ["Note"]⟩ _ heritage with
    ⟨table, answered, _, names, _⟩
  rcases Program.membersOf_instantiates notes answered with ⟨levels, instantiated, instantiates⟩
  exact ⟨table, levels, answered, instantiated, instantiates, names.trans (by decide +kernel)⟩

end Instantiated

end MemberStubs
