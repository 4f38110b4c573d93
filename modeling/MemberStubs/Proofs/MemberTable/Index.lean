import MemberStubs.MemberTable
import Mathlib.Data.List.Basic

/-! The representation of a member table. The index maps precisely the names of the stored members
to their positions. A table is then an ordered map, and an operation is described by what it does to
the list of names and to the lookup of a name. -/

namespace MemberStubs

namespace Member

/-- The accessor pair of two halves is as visible as the getter and abstract if either half is; the
rest is that of the first half. -/
structure IsPairOf (whole first second : Member) : Prop where
  name : whole.name = first.name
  shape : ∃ returnType parameter, whole.shape = .accessorPair returnType parameter ∧
    (first.shape = .getter returnType ∧ second.shape = .setter parameter ∧
        whole.visibility = first.visibility ∨
      first.shape = .setter parameter ∧ second.shape = .getter returnType ∧
        whole.visibility = second.visibility)
  isAbstract : whole.isAbstract = (first.isAbstract || second.isAbstract)
  isReadonly : whole.isReadonly = first.isReadonly
  isOptional : whole.isOptional = first.isOptional

theorem isPairOf_of_completeWith? {first second whole : Member}
    (completed : first.completeWith? second = some whole) : whole.IsPairOf first second := by
  rw [completeWith?] at completed
  split at completed
  · cases completed
  · dsimp only at completed
    split at completed
    · next getter setter =>
        cases completed
        exact ⟨rfl, ⟨_, _, rfl, .inl ⟨getter, setter, rfl⟩⟩, rfl, rfl, rfl⟩
    · next setter getter =>
        cases completed
        exact ⟨rfl, ⟨_, _, rfl, .inr ⟨setter, getter, rfl⟩⟩, rfl, rfl, rfl⟩
    · cases completed

end Member

namespace MemberTable

def Indexed (table : MemberTable) : Prop :=
  ∀ (name : String) (position : Nat),
    table.index[name]? = some position ↔ table.names[position]? = some name

variable {table : MemberTable} {name : String}

@[simp] theorem names_empty : empty.names = [] := rfl

@[simp] theorem find?_empty (name : String) : empty.find? name = none := by
  simp [find?, empty]

theorem indexed_empty : empty.Indexed := by
  intro name position
  simp [empty, names]

theorem getElem?_names (table : MemberTable) (position : Nat) :
    table.names[position]? = (table.members[position]?).map Member.name := by
  rw [names, List.getElem?_map]

namespace Indexed

theorem nodup_names (indexed : table.Indexed) : table.names.Nodup := by
  rw [List.nodup_iff_pairwise_ne, List.pairwise_iff_getElem]
  intro first second firstBound secondBound less equal
  have atFirst := (indexed table.names[first] first).mpr (List.getElem?_eq_getElem firstBound)
  have atSecond := (indexed table.names[second] second).mpr (List.getElem?_eq_getElem secondBound)
  rw [equal] at atFirst
  have same := Option.some.inj (atFirst.symm.trans atSecond)
  omega

theorem index_isSome_iff (indexed : table.Indexed) :
    (table.index[name]?).isSome ↔ name ∈ table.names := by
  rw [Option.isSome_iff_exists, List.mem_iff_getElem?]
  exact exists_congr fun position => indexed name position

theorem index_eq_none_iff (indexed : table.Indexed) :
    table.index[name]? = none ↔ name ∉ table.names := by
  rw [← indexed.index_isSome_iff, Option.not_isSome_iff_eq_none]

theorem contains_iff (indexed : table.Indexed) :
    table.contains name = true ↔ name ∈ table.names := by
  rw [← indexed.index_isSome_iff, contains, Std.HashMap.contains_eq_isSome_getElem?]

theorem find?_eq_some_iff (indexed : table.Indexed) {member : Member} :
    table.find? name = some member ↔ member ∈ table.members ∧ member.name = name := by
  rw [find?, Option.bind_eq_some_iff, List.mem_iff_getElem?]
  constructor
  · rintro ⟨position, known, found⟩
    have named := (indexed name position).mp known
    rw [getElem?_names, found] at named
    exact ⟨⟨position, found⟩, Option.some.inj named⟩
  · rintro ⟨⟨position, found⟩, named⟩
    refine ⟨position, (indexed name position).mpr ?_, found⟩
    rw [getElem?_names, found, Option.map_some, named]

theorem find?_eq_none_iff (indexed : table.Indexed) :
    table.find? name = none ↔ name ∉ table.names := by
  rw [Option.eq_none_iff_forall_ne_some, names, List.mem_map]
  constructor
  · rintro absent ⟨member, stored, named⟩
    exact absent member (indexed.find?_eq_some_iff.mpr ⟨stored, named⟩)
  · intro absent member found
    exact absent ⟨member, indexed.find?_eq_some_iff.mp found⟩

end Indexed

/-! ## Arrival of a name

A name that is new goes to the end of the table, with its member. -/

private theorem indexed_append (indexed : table.Indexed) {member : Member}
    (fresh : member.name ∉ table.names) :
    Indexed
      { members := table.members ++ [member]
        index := table.index.insert member.name table.members.length } := by
  intro name position
  have size : table.names.length = table.members.length := List.length_map ..
  rw [Std.HashMap.getElem?_insert]
  simp only [names, List.map_append, List.map_cons, List.map_nil, beq_iff_eq]
  rw [← names, List.getElem?_append, size]
  by_cases same : member.name = name
  · subst same
    have absent : ∀ position, table.names[position]? ≠ some member.name := fun position found =>
      fresh (List.mem_of_getElem? found)
    by_cases inside : position < table.members.length
    · simp [inside, absent]
      omega
    · simp only [if_true, inside, if_false, List.getElem?_singleton]
      by_cases last : position - table.members.length = 0 <;> simp [last] <;> omega
  · rw [if_neg same, indexed name position]
    by_cases inside : position < table.members.length
    · simp [inside]
    · have beyond : table.names[position]? = none := List.getElem?_eq_none (by omega)
      simp only [inside, if_false, beyond, List.getElem?_singleton]
      split <;> simp [same]

private theorem insert_of_not_mem (indexed : table.Indexed) {member : Member}
    (fresh : member.name ∉ table.names) :
    table.insert member =
      { members := table.members ++ [member]
        index := table.index.insert member.name table.members.length } := by
  simp only [insert, indexed.index_eq_none_iff.mpr fresh]

private theorem names_insert_of_not_mem (indexed : table.Indexed) {member : Member}
    (fresh : member.name ∉ table.names) :
    (table.insert member).names = table.names ++ [member.name] := by
  rw [insert_of_not_mem indexed fresh, names, List.map_append]
  rfl

private theorem indexed_insert_of_not_mem (indexed : table.Indexed) {member : Member}
    (fresh : member.name ∉ table.names) : (table.insert member).Indexed := by
  rw [insert_of_not_mem indexed fresh]
  exact indexed_append indexed fresh

private theorem find?_insert_of_not_mem (indexed : table.Indexed) {member : Member}
    (fresh : member.name ∉ table.names) (name : String) :
    (table.insert member).find? name =
      if member.name = name then some member else table.find? name := by
  have inserted := indexed_insert_of_not_mem indexed fresh
  ext found
  rw [inserted.find?_eq_some_iff, insert_of_not_mem indexed fresh, List.mem_append,
    List.mem_singleton]
  by_cases same : member.name = name
  · subst same
    rw [if_pos rfl, Option.some.injEq]
    constructor
    · rintro ⟨stored | rfl, named⟩
      · exact absurd (List.mem_map.mpr ⟨found, stored, named⟩) fresh
      · rfl
    · rintro rfl
      exact ⟨Or.inr rfl, rfl⟩
  · rw [if_neg same, indexed.find?_eq_some_iff]
    constructor
    · rintro ⟨stored | rfl, named⟩
      · exact ⟨stored, named⟩
      · exact absurd named same
    · rintro ⟨stored, named⟩
      exact ⟨Or.inl stored, named⟩

/-! ## Change of a member

A name that is present keeps its position, whatever becomes of its member. -/

section Change

variable {position : Nat} {change : Member → Member}

private theorem names_modify (indexed : table.Indexed)
    (known : table.index[name]? = some position)
    (keeps : ∀ member, member.name = name → (change member).name = name) :
    (table.members.modify position change).map Member.name = table.names := by
  apply List.ext_getElem?
  intro other
  rw [List.getElem?_map, List.getElem?_modify, getElem?_names]
  by_cases same : position = other
  · subst same
    have named := (indexed name position).mp known
    rw [getElem?_names] at named
    rcases Option.map_eq_some_iff.mp named with ⟨member, found, called⟩
    simp [found, called, keeps member called]
  · simp [same]

private theorem indexed_modify (indexed : table.Indexed)
    (known : table.index[name]? = some position)
    (keeps : ∀ member, member.name = name → (change member).name = name) :
    Indexed { table with members := table.members.modify position change } := by
  intro other place
  rw [indexed other place]
  simp only [names, names_modify indexed known keeps]

private theorem find?_modify (indexed : table.Indexed)
    (known : table.index[name]? = some position) (other : String) :
    find? { table with members := table.members.modify position change } other =
      if name = other then (table.find? name).map change else table.find? other := by
  simp only [find?]
  by_cases same : name = other
  · subst same
    simp [known]
  · rw [if_neg same]
    cases found : table.index[other]? with
    | none => rfl
    | some place =>
        have different : position ≠ place := by
          rintro rfl
          have first := (indexed name position).mp known
          have second := (indexed other position).mp found
          exact same (Option.some.inj (first.symm.trans second))
        simp [List.getElem?_modify, different]

end Change

/-! ## Insertion of a member -/

private theorem insert_of_known {member : Member} {position : Nat}
    (known : table.index[member.name]? = some position) :
    table.insert member =
      { table with members := table.members.modify position fun _ => member } := by
  simp only [insert, known, List.set_eq_modify]

theorem indexed_insert (indexed : table.Indexed) (member : Member) :
    (table.insert member).Indexed := by
  by_cases present : member.name ∈ table.names
  · rcases Option.isSome_iff_exists.mp (indexed.index_isSome_iff.mpr present) with
      ⟨position, known⟩
    rw [insert_of_known known]
    exact indexed_modify indexed known fun _ _ => rfl
  · exact indexed_insert_of_not_mem indexed present

theorem names_insert (indexed : table.Indexed) (member : Member) :
    (table.insert member).names =
      if member.name ∈ table.names then table.names else table.names ++ [member.name] := by
  by_cases present : member.name ∈ table.names
  · rcases Option.isSome_iff_exists.mp (indexed.index_isSome_iff.mpr present) with
      ⟨position, known⟩
    rw [if_pos present, insert_of_known known]
    exact names_modify indexed known fun _ _ => rfl
  · rw [if_neg present, names_insert_of_not_mem indexed present]

theorem find?_insert (indexed : table.Indexed) (member : Member) (name : String) :
    (table.insert member).find? name =
      if member.name = name then some member else table.find? name := by
  by_cases present : member.name ∈ table.names
  · rcases Option.isSome_iff_exists.mp (indexed.index_isSome_iff.mpr present) with
      ⟨position, known⟩
    rw [insert_of_known known, find?_modify indexed known]
    by_cases same : member.name = name
    · subst same
      cases found : table.find? member.name with
      | none => exact absurd present (indexed.find?_eq_none_iff.mp found)
      | some first => rfl
    · simp only [if_neg same]
  · exact find?_insert_of_not_mem indexed present name

/-! ## Declarations of one class -/

/-- What stands for a name after one more declaration of it. -/
def declared (known : Option Member) (member : Member) : Member :=
  known.elim member fun first => (first.completeWith? member).getD first

private theorem name_getD_completeWith? (first second : Member) :
    ((first.completeWith? second).getD first).name = first.name := by
  cases completed : first.completeWith? second with
  | none => rfl
  | some whole => exact (Member.isPairOf_of_completeWith? completed).name

private theorem declare_of_known {member : Member} {position : Nat}
    (known : table.index[member.name]? = some position) :
    table.declare member =
      { table with
        members := table.members.modify position fun first =>
          (first.completeWith? member).getD first } := by
  simp only [declare, known]

private theorem declare_of_not_mem (indexed : table.Indexed) {member : Member}
    (fresh : member.name ∉ table.names) : table.declare member = table.insert member := by
  simp only [declare, indexed.index_eq_none_iff.mpr fresh]

theorem indexed_declare (indexed : table.Indexed) (member : Member) :
    (table.declare member).Indexed := by
  by_cases present : member.name ∈ table.names
  · rcases Option.isSome_iff_exists.mp (indexed.index_isSome_iff.mpr present) with
      ⟨position, known⟩
    rw [declare_of_known known]
    exact indexed_modify indexed known fun first named =>
      (name_getD_completeWith? first member).trans named
  · rw [declare_of_not_mem indexed present]
    exact indexed_insert_of_not_mem indexed present

theorem names_declare (indexed : table.Indexed) (member : Member) :
    (table.declare member).names =
      if member.name ∈ table.names then table.names else table.names ++ [member.name] := by
  by_cases present : member.name ∈ table.names
  · rcases Option.isSome_iff_exists.mp (indexed.index_isSome_iff.mpr present) with
      ⟨position, known⟩
    rw [if_pos present, declare_of_known known]
    exact names_modify indexed known fun first named =>
      (name_getD_completeWith? first member).trans named
  · rw [if_neg present, declare_of_not_mem indexed present]
    exact names_insert_of_not_mem indexed present

theorem find?_declare (indexed : table.Indexed) (member : Member) (name : String) :
    (table.declare member).find? name =
      if member.name = name then some (declared (table.find? name) member)
      else table.find? name := by
  by_cases present : member.name ∈ table.names
  · rcases Option.isSome_iff_exists.mp (indexed.index_isSome_iff.mpr present) with
      ⟨position, known⟩
    rw [declare_of_known known, find?_modify indexed known]
    by_cases same : member.name = name
    · subst same
      cases found : table.find? member.name with
      | none => exact absurd present (indexed.find?_eq_none_iff.mp found)
      | some first => simp [declared]
    · simp only [if_neg same]
  · rw [declare_of_not_mem indexed present, find?_insert_of_not_mem indexed present]
    by_cases same : member.name = name
    · subst same
      simp [indexed.find?_eq_none_iff.mpr present, declared]
    · simp only [if_neg same]

/-! ## Inherited members -/

theorem indexed_insertInherited (indexed : table.Indexed) (member : Member) :
    (table.insertInherited member).1.Indexed := by
  by_cases present : member.name ∈ table.names
  · simpa only [insertInherited, indexed.contains_iff.mpr present, if_true] using indexed
  · have absent : ¬ table.contains member.name = true := mt indexed.contains_iff.mp present
    simpa only [insertInherited, absent, if_false, Bool.false_eq_true]
      using indexed_insert_of_not_mem indexed present

theorem names_insertInherited (indexed : table.Indexed) (member : Member) :
    (table.insertInherited member).1.names =
      if member.name ∈ table.names then table.names else table.names ++ [member.name] := by
  by_cases present : member.name ∈ table.names
  · simp only [insertInherited, indexed.contains_iff.mpr present, present, if_true]
  · have absent : ¬ table.contains member.name = true := mt indexed.contains_iff.mp present
    simp only [insertInherited, absent, present, if_false, Bool.false_eq_true,
      names_insert_of_not_mem indexed present]

theorem find?_insertInherited (indexed : table.Indexed) (member : Member) (name : String) :
    (table.insertInherited member).1.find? name =
      (table.find? name).or (if member.name = name then some member else none) := by
  by_cases present : member.name ∈ table.names
  · simp only [insertInherited, indexed.contains_iff.mpr present, if_true]
    by_cases same : member.name = name
    · subst same
      cases found : table.find? member.name with
      | none => exact absurd present (indexed.find?_eq_none_iff.mp found)
      | some first => rfl
    · simp [same]
  · have absent : ¬ table.contains member.name = true := mt indexed.contains_iff.mp present
    simp only [insertInherited, absent, if_false, Bool.false_eq_true,
      find?_insert_of_not_mem indexed present]
    by_cases same : member.name = name
    · subst same
      simp [indexed.find?_eq_none_iff.mpr present]
    · simp [same]

end MemberTable

end MemberStubs
