import MemberStubs.Proofs.MemberTable.Levels

/-! What a table leaves abstract, in order. A table is its names with their members, and an ancestor
adds those of its members whose names are new, behind all that are there. -/

namespace MemberStubs.MemberTable

def leftAbstract (table : MemberTable) : List Member :=
  table.members.filter Member.isAbstract

section

variable {table ancestor : MemberTable}

theorem Indexed.members_eq (indexed : table.Indexed) :
    table.members = table.names.filterMap table.find? := by
  have paired : table.names.map table.find? = table.members.map some := by
    rw [names, List.map_map]
    exact List.map_congr_left fun member stored =>
      indexed.find?_eq_some_iff.mpr ⟨stored, rfl⟩
  calc table.members = (table.members.map some).filterMap id := by simp
    _ = (table.names.map table.find?).filterMap id := by rw [paired]
    _ = table.names.filterMap table.find? := by rw [List.filterMap_map]; rfl

theorem Indexed.leftAbstract_eq (indexed : table.Indexed) :
    table.leftAbstract =
      table.names.filterMap fun name => (table.find? name).filter Member.isAbstract := by
  rw [leftAbstract, indexed.members_eq, List.filter_filterMap]

theorem members_insertInherited (indexed : table.Indexed) (member : Member) :
    (table.insertInherited member).1.members =
      if member.name ∈ table.names then table.members else table.members ++ [member] := by
  by_cases present : member.name ∈ table.names
  · rw [if_pos present, insertInherited, if_pos (indexed.contains_iff.mpr present)]
  · rw [if_neg present, insertInherited, if_neg (mt indexed.contains_iff.mp present), insert,
      indexed.index_eq_none_iff.mpr present]

theorem members_inherit (indexed : table.Indexed) (ancestorIndexed : ancestor.Indexed) :
    (table.inherit ancestor).members =
      table.members ++ ancestor.members.filter fun member => member.name ∉ table.names := by
  have distinct : (ancestor.members.map Member.name).Nodup := ancestorIndexed.nodup_names
  rw [inherit]
  generalize ancestor.members = members at distinct ⊢
  induction members generalizing table with
  | nil => simp
  | cons member members induction =>
      rcases List.nodup_cons.mp distinct with ⟨other, distinct⟩
      have later : ∀ next ∈ members, next.name ≠ member.name := fun next held same =>
        other (List.mem_map.mpr ⟨next, held, same⟩)
      rw [List.foldl_cons, induction (indexed_insertInherited indexed member) distinct,
        members_insertInherited indexed, names_insertInherited indexed, List.filter_cons]
      by_cases present : member.name ∈ table.names
      · simp [present]
      · have unaffected : members.filter (fun next => next.name ∉ table.names ++ [member.name]) =
            members.filter fun next => next.name ∉ table.names :=
          List.filter_congr fun next held => by simp [later next held]
        rw [if_neg present, if_neg present, unaffected, if_pos (decide_eq_true present),
          List.append_assoc]
        rfl

theorem leftAbstract_inherit (indexed : table.Indexed) (ancestorIndexed : ancestor.Indexed) :
    (table.inherit ancestor).leftAbstract =
      table.leftAbstract ++ ancestor.leftAbstract.filter fun member => member.name ∉ table.names := by
  rw [leftAbstract, members_inherit indexed ancestorIndexed, List.filter_append, List.filter_comm]
  rfl

end

/-- A table that has at least the names it had and leaves no more abstract than it did. -/
structure Grown (before after : MemberTable) : Prop where
  indexed : before.Indexed
  indexed' : after.Indexed
  names_subset : ∀ name ∈ before.names, name ∈ after.names
  fewer : after.leftAbstract.Sublist before.leftAbstract

namespace Grown

theorem inherit {table table' level level' : MemberTable} (tables : Grown table table')
    (levels : Grown level level') : Grown (table.inherit level) (table'.inherit level') where
  indexed := indexed_inherit tables.indexed
  indexed' := indexed_inherit tables.indexed'
  names_subset name := by
    rw [names_inherit tables.indexed, names_inherit tables.indexed', List.mem_eraseDups,
      List.mem_eraseDups, List.mem_append, List.mem_append]
    exact Or.imp (tables.names_subset name) (levels.names_subset name)
  fewer := by
    rw [leftAbstract_inherit tables.indexed levels.indexed,
      leftAbstract_inherit tables.indexed' levels.indexed']
    have hidden : ∀ member : Member, decide (member.name ∉ table'.names) = true →
        decide (member.name ∉ table.names) = true := fun member absent => by
      simpa using mt (tables.names_subset member.name) (of_decide_eq_true absent)
    exact tables.fewer.append
      ((levels.fewer.filter _).trans (List.monotone_filter_right _ hidden))

theorem foldl_inherit {levels levels' : List MemberTable}
    (pairs : List.Forall₂ Grown levels levels') {table table' : MemberTable}
    (tables : Grown table table') :
    Grown (levels.foldl MemberTable.inherit table) (levels'.foldl MemberTable.inherit table') := by
  induction pairs generalizing table table' with
  | nil => exact tables
  | cons head _ induction => exact induction (tables.inherit head)

theorem refl_empty : Grown empty empty :=
  ⟨indexed_empty, indexed_empty, fun _ => id, .refl _⟩

end Grown

end MemberStubs.MemberTable
