import MemberStubs.Proofs.MemberTable.Index

/-! A table that takes up members one after another. An operation leaves every name where it is and
lets at most one arrive, behind all that are there; what it does to the member of its own name
depends on that member only. So a table holds the names that have arrived, in the order in which
they first did, and what stands for a name comes of the operations on that name alone. -/

namespace MemberStubs

/-! ## First occurrences -/

theorem eraseDups_of_nodup {values : List String} (nodup : values.Nodup) :
    values.eraseDups = values := by
  induction values with
  | nil => rfl
  | cons value values induction =>
      have parts := List.nodup_cons.mp nodup
      have others : (values.filter fun other => !other == value) = values := by
        apply List.filter_eq_self.mpr
        intro other member
        simp only [Bool.not_eq_true', beq_eq_false_iff_ne]
        rintro rfl
        exact parts.1 member
      rw [List.eraseDups_cons, others, induction parts.2]

theorem nodup_eraseDups (values : List String) : values.eraseDups.Nodup := by
  match values with
  | [] => exact List.nodup_nil
  | value :: later =>
      rw [List.eraseDups_cons, List.nodup_cons]
      constructor
      · intro present
        simpa using List.of_mem_filter (List.mem_eraseDups.mp present)
      · exact nodup_eraseDups (later.filter fun other => !other == value)
termination_by values.length
decreasing_by
  have shorter := List.length_filter_le (fun other => !other == value) later
  simp only [List.length_cons]
  omega

/-- A value that is present may arrive once more. -/
theorem eraseDups_append_cons (values : List String) (value : String) (later : List String) :
    ((if value ∈ values then values else values ++ [value]) ++ later).eraseDups =
      (values ++ value :: later).eraseDups := by
  by_cases present : value ∈ values
  · rw [if_pos present, List.eraseDups_append, List.eraseDups_append]
    simp [List.removeAll, present]
  · rw [if_neg present, List.append_assoc]
    rfl

theorem eraseDups_eraseDups_append (values later : List String) :
    (values.eraseDups ++ later).eraseDups = (values ++ later).eraseDups := by
  rw [List.eraseDups_append, List.eraseDups_append, eraseDups_of_nodup (nodup_eraseDups values)]
  simp [List.removeAll]

theorem eraseDups_filter (test : String → Bool) (values : List String) :
    (values.filter test).eraseDups = values.eraseDups.filter test := by
  match values with
  | [] => rfl
  | value :: later =>
      have others := eraseDups_filter test (later.filter fun other => !other == value)
      rw [List.filter_filter] at others
      rw [List.eraseDups_cons, List.filter_cons, List.filter_cons]
      by_cases passes : test value = true
      · rw [if_pos passes, if_pos passes, List.eraseDups_cons, ← others, List.filter_filter]
        simp only [Bool.and_comm]
      · rw [if_neg passes, if_neg passes, ← others]
        congr 1
        apply List.filter_congr
        intro other _
        by_cases same : other = value
        · subst same
          simp [passes]
        · simp [same]
termination_by values.length
decreasing_by
  have shorter := List.length_filter_le (fun other => !other == value) later
  simp only [List.length_cons]
  omega

theorem eraseDups_append_eraseDups (values later : List String) :
    (values ++ later.eraseDups).eraseDups = (values ++ later).eraseDups := by
  rw [List.eraseDups_append, List.eraseDups_append, List.removeAll, List.removeAll,
    eraseDups_filter, eraseDups_filter, eraseDups_of_nodup (nodup_eraseDups later)]

theorem eraseDups_flatMap_eraseDups (names : α → List String) (values : List α) :
    (values.flatMap fun value => (names value).eraseDups).eraseDups =
      (values.flatMap names).eraseDups := by
  induction values with
  | nil => rfl
  | cons value values induction =>
      rw [List.flatMap_cons, List.flatMap_cons, eraseDups_eraseDups_append,
        ← eraseDups_append_eraseDups, induction, eraseDups_append_eraseDups]

namespace MemberTable

/-! ## Operations -/

inductive Operation where
  | insert (member : Member)
  | insertInherited (member : Member)
  | declare (member : Member)

namespace Operation

def member : Operation → Member
  | .insert member => member
  | .insertInherited member => member
  | .declare member => member

/-- The name that arrives with the operation. -/
def name (operation : Operation) : String :=
  operation.member.name

/-- What stands for the name afterwards. -/
def leaves (known : Option Member) : Operation → Member
  | .insert member => member
  | .insertInherited member => known.getD member
  | .declare member => declared known member

end Operation

def perform (table : MemberTable) : Operation → MemberTable
  | .insert member => table.insert member
  | .insertInherited member => (table.insertInherited member).1
  | .declare member => table.declare member

def run (operations : List Operation) : MemberTable :=
  operations.foldl perform empty

variable {table : MemberTable}

theorem indexed_perform (indexed : table.Indexed) (operation : Operation) :
    (table.perform operation).Indexed := by
  cases operation with
  | insert member => exact indexed_insert indexed member
  | insertInherited member => exact indexed_insertInherited indexed member
  | declare member => exact indexed_declare indexed member

theorem names_perform (indexed : table.Indexed) (operation : Operation) :
    (table.perform operation).names =
      if operation.name ∈ table.names then table.names else table.names ++ [operation.name] := by
  cases operation with
  | insert member => exact names_insert indexed member
  | insertInherited member => exact names_insertInherited indexed member
  | declare member => exact names_declare indexed member

theorem find?_perform (indexed : table.Indexed) (operation : Operation) (name : String) :
    (table.perform operation).find? name =
      if operation.name = name then some (operation.leaves (table.find? name))
      else table.find? name := by
  cases operation with
  | insert member => exact find?_insert indexed member name
  | insertInherited member =>
      refine (find?_insertInherited indexed member name).trans ?_
      show _ = if member.name = name then some ((table.find? name).getD member) else _
      by_cases same : member.name = name
      · rw [if_pos same, if_pos same]
        cases table.find? name <;> rfl
      · rw [if_neg same, if_neg same, Option.or_none]
  | declare member => exact find?_declare indexed member name

/-! ## Runs of operations -/

theorem indexed_foldl_perform (indexed : table.Indexed) (operations : List Operation) :
    (operations.foldl perform table).Indexed := by
  induction operations generalizing table with
  | nil => exact indexed
  | cons operation operations induction => exact induction (indexed_perform indexed operation)

theorem names_foldl_perform (indexed : table.Indexed) (operations : List Operation) :
    (operations.foldl perform table).names =
      (table.names ++ operations.map Operation.name).eraseDups := by
  induction operations generalizing table with
  | nil => simp [eraseDups_of_nodup indexed.nodup_names]
  | cons operation operations induction =>
      rw [List.foldl_cons, induction (indexed_perform indexed operation), names_perform indexed,
        eraseDups_append_cons]
      rfl

theorem find?_foldl_perform (indexed : table.Indexed) (operations : List Operation)
    (name : String) :
    (operations.foldl perform table).find? name =
      (operations.filter (·.name = name)).foldl
        (fun known operation => some (operation.leaves known)) (table.find? name) := by
  induction operations generalizing table with
  | nil => rfl
  | cons operation operations induction =>
      rw [List.foldl_cons, induction (indexed_perform indexed operation), find?_perform indexed,
        List.filter_cons]
      by_cases same : operation.name = name <;> simp [same]

theorem indexed_run (operations : List Operation) : (run operations).Indexed :=
  indexed_foldl_perform indexed_empty operations

theorem names_run (operations : List Operation) :
    (run operations).names = (operations.map Operation.name).eraseDups := by
  rw [run, names_foldl_perform indexed_empty, names_empty, List.nil_append]

/-! ## What an operation keeps -/

/-- A name that is there keeps its place. -/
theorem names_prefix_perform (indexed : table.Indexed) (operation : Operation) :
    table.names <+: (table.perform operation).names := by
  rw [names_perform indexed]
  split
  · exact List.prefix_rfl
  · exact List.prefix_append ..

theorem index_perform (indexed : table.Indexed) (operation : Operation) {name : String}
    {position : Nat} (known : table.index[name]? = some position) :
    (table.perform operation).index[name]? = some position := by
  have named := (indexed name position).mp known
  have inside := (List.getElem?_eq_some_iff.mp named).1
  rcases names_prefix_perform indexed operation with ⟨later, whole⟩
  apply (indexed_perform indexed operation name position).mpr
  rw [← whole, List.getElem?_append_left inside, named]

theorem insertInherited_snd_iff (indexed : table.Indexed) (member : Member) :
    (table.insertInherited member).2 = true ↔ member.name ∉ table.names := by
  rw [insertInherited]
  by_cases present : member.name ∈ table.names
  · simp [indexed.contains_iff.mpr present, present]
  · simp [mt indexed.contains_iff.mp present, present]

theorem insertInherited_of_mem (indexed : table.Indexed) {member : Member}
    (present : member.name ∈ table.names) : table.insertInherited member = (table, false) := by
  rw [insertInherited, if_pos (indexed.contains_iff.mpr present)]

/-- A member that is there stays as it is, unless the other half of an accessor completes it. -/
theorem find?_declare_of_known (indexed : table.Indexed) {member first : Member}
    (known : table.find? member.name = some first) :
    (table.declare member).find? member.name = some first ∨
      ∃ whole, (table.declare member).find? member.name = some whole ∧
        whole.IsPairOf first member := by
  rw [find?_declare indexed, if_pos rfl, known, declared, Option.elim_some]
  cases completed : first.completeWith? member with
  | none => exact .inl rfl
  | some whole => exact .inr ⟨whole, rfl, Member.isPairOf_of_completeWith? completed⟩

/-- The index has no names but those of the members. -/
theorem Indexed.size_index (indexed : table.Indexed) : table.index.size = table.size := by
  have sameNames : ∀ name, name ∈ table.index.keys ↔ name ∈ table.names := fun name => by
    rw [Std.HashMap.mem_keys, ← indexed.contains_iff, contains, Std.HashMap.contains_iff_mem]
  have distinct : table.index.keys.Nodup := by
    simpa [List.nodup_iff_pairwise_ne] using Std.HashMap.distinct_keys (m := table.index)
  have perm := (List.perm_ext_iff_of_nodup distinct indexed.nodup_names).mpr sameNames
  rw [← Std.HashMap.length_keys, perm.length_eq, names, List.length_map, size]

/-! ## The table of a run -/

/-- A table in which members of these names have arrived, and what the next operation may do to
it. -/
structure IsOrdered (table : MemberTable) (arrivals : List String) : Prop where
  indexed : table.Indexed
  size_index : table.index.size = table.size
  nodup_names : table.names.Nodup
  names_eq : table.names = arrivals.eraseDups
  find?_iff : ∀ name member,
    table.find? name = some member ↔ member ∈ table.members ∧ member.name = name
  contains_iff : ∀ name, table.contains name = true ↔ name ∈ arrivals
  contains_eq : ∀ name, table.contains name = (table.find? name).isSome
  size_eq : table.size = arrivals.eraseDups.length
  isEmpty_iff : table.isEmpty = true ↔ arrivals = []
  names_prefix : ∀ operation, table.names <+: (table.perform operation).names
  index_kept : ∀ operation (name : String) (position : Nat), table.index[name]? = some position →
    (table.perform operation).index[name]? = some position
  find?_other : ∀ (operation : Operation) (name : String), operation.name ≠ name →
    (table.perform operation).find? name = table.find? name
  inserts : ∀ member, (table.insert member).find? member.name = some member
  inherits_iff : ∀ member, (table.insertInherited member).2 = true ↔ member.name ∉ arrivals
  inherits_new : ∀ member, (table.insertInherited member).2 = true →
    (table.insertInherited member).1.find? member.name = some member
  inherits_nothing : ∀ member, (table.insertInherited member).2 = false →
    (table.insertInherited member).1 = table
  declares_new : ∀ member, table.find? member.name = none →
    (table.declare member).find? member.name = some member
  /-- Nothing changes, unless the other half of an accessor completes what is there. -/
  declares_known : ∀ member first, table.find? member.name = some first →
    (table.declare member).find? member.name = some first ∨
      ∃ whole, (table.declare member).find? member.name = some whole ∧
        whole.IsPairOf first member

theorem run_isOrdered (operations : List Operation) :
    (run operations).IsOrdered (operations.map Operation.name) := by
  have indexed := indexed_run operations
  have order := names_run operations
  have arrived : ∀ name, name ∈ (run operations).names ↔ name ∈ operations.map Operation.name :=
    fun name => by rw [order, List.mem_eraseDups]
  exact {
    indexed
    size_index := indexed.size_index
    nodup_names := indexed.nodup_names
    names_eq := order
    find?_iff := fun _ _ => indexed.find?_eq_some_iff
    contains_iff := fun name => indexed.contains_iff.trans (arrived name)
    contains_eq := fun name => by
      rw [Bool.eq_iff_iff, indexed.contains_iff, Option.isSome_iff_ne_none, ne_eq,
        indexed.find?_eq_none_iff, not_not]
    size_eq := by rw [← order, names, List.length_map, size]
    isEmpty_iff := by
      rw [isEmpty, List.isEmpty_iff, ← List.map_eq_nil_iff, ← names,
        List.eq_nil_iff_forall_not_mem, List.eq_nil_iff_forall_not_mem]
      simp only [arrived]
    names_prefix := names_prefix_perform indexed
    index_kept := fun operation _ _ => index_perform indexed operation
    find?_other := fun operation name other => by rw [find?_perform indexed, if_neg other]
    inserts := fun member => by rw [find?_insert indexed, if_pos rfl]
    inherits_iff := fun member =>
      (insertInherited_snd_iff indexed member).trans (not_congr (arrived member.name))
    inherits_new := fun member taken => by
      have absent := (insertInherited_snd_iff indexed member).mp taken
      rw [find?_insertInherited indexed, if_pos rfl, indexed.find?_eq_none_iff.mpr absent,
        Option.none_or]
    inherits_nothing := fun member refused => by
      have present : member.name ∈ (run operations).names := by
        by_contra absent
        have taken := (insertInherited_snd_iff indexed member).mpr absent
        rw [refused] at taken
        cases taken
      rw [insertInherited_of_mem indexed present]
    declares_new := fun member absent => by
      rw [find?_declare indexed, if_pos rfl, absent]
      rfl
    declares_known := fun _ _ => find?_declare_of_known indexed }

end MemberTable

end MemberStubs
