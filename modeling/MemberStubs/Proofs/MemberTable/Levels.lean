import MemberStubs.Proofs.MemberTable.Arrival

/-! The table of one declaration and the table of a whole chain of them. Names stand in the order in
which they are first met. Within one declaration the first member of a name counts, completed by
the first later member that is its other half. Along a chain the nearest level counts. -/

namespace MemberStubs

namespace Member

/-- What stands for a name in the members of one declaration. -/
def standing? (members : List Member) (name : String) : Option Member :=
  match members.filter (·.name = name) with
  | [] => none
  | first :: later => some ((later.findSome? first.completeWith?).getD first)

/-- A pair is complete. -/
theorem completeWith?_of_completed {first second whole : Member}
    (completed : first.completeWith? second = some whole) (other : Member) :
    whole.completeWith? other = none := by
  rcases (isPairOf_of_completeWith? completed).shape with ⟨returnType, parameter, shape, _⟩
  simp [completeWith?, shape]

end Member

namespace MemberTable

/-! ## One declaration -/

theorem ofDeclaration_eq (members : List Member) :
    ofDeclaration members = run (members.map .declare) := by
  rw [run, List.foldl_map]
  rfl

private theorem foldl_declared (first : Member) (later : List Member) :
    later.foldl (fun known member => some (declared known member)) (some first) =
      some ((later.findSome? first.completeWith?).getD first) := by
  induction later generalizing first with
  | nil => rfl
  | cons second later induction =>
      rw [List.foldl_cons]
      show later.foldl _ (some ((first.completeWith? second).getD first)) = _
      rw [induction, List.findSome?_cons]
      cases completed : first.completeWith? second with
      | none => rfl
      | some whole =>
          have rest : later.findSome? whole.completeWith? = none :=
            List.findSome?_eq_none_iff.mpr fun other _ =>
              Member.completeWith?_of_completed completed other
          simp [rest]

theorem indexed_ofDeclaration (members : List Member) : (ofDeclaration members).Indexed := by
  rw [ofDeclaration_eq]
  exact indexed_run _

theorem names_ofDeclaration (members : List Member) :
    (ofDeclaration members).names = (members.map Member.name).eraseDups := by
  rw [ofDeclaration_eq, names_run, List.map_map]
  rfl

theorem find?_ofDeclaration (members : List Member) (name : String) :
    (ofDeclaration members).find? name = Member.standing? members name := by
  rw [ofDeclaration_eq, run, find?_foldl_perform indexed_empty, find?_empty, List.filter_map,
    List.foldl_map, Member.standing?]
  show (members.filter (·.name = name)).foldl
    (fun known member => some (declared known member)) none = _
  cases members.filter (·.name = name) with
  | nil => rfl
  | cons first later => exact foldl_declared first later

/-! ## A chain of declarations -/

theorem inherit_eq (table ancestor : MemberTable) :
    table.inherit ancestor = (ancestor.members.map .insertInherited).foldl perform table := by
  rw [List.foldl_map]
  rfl

private theorem foldl_inherited (known : Option Member) (members : List Member) :
    members.foldl (fun known member => some (known.getD member)) known = known.or members.head? := by
  induction members generalizing known with
  | nil => simp
  | cons first later induction =>
      rw [List.foldl_cons, induction]
      cases known <;> rfl

/-- The stored member of a name is the first one, there being no other. -/
theorem Indexed.find?_members {table : MemberTable} (indexed : table.Indexed) (name : String) :
    table.members.find? (·.name = name) = table.find? name := by
  cases found : table.find? name with
  | none =>
      have absent := indexed.find?_eq_none_iff.mp found
      apply List.find?_eq_none.mpr
      intro member stored named
      exact absent (List.mem_map.mpr ⟨member, stored, by simpa using named⟩)
  | some member =>
      cases first : table.members.find? (·.name = name) with
      | none =>
          have known := indexed.find?_eq_some_iff.mp found
          exact absurd known.2 (by simpa using List.find?_eq_none.mp first member known.1)
      | some other =>
          have named : other.name = name := by simpa using List.find?_some first
          have stored := indexed.find?_eq_some_iff.mpr ⟨List.mem_of_find?_eq_some first, named⟩
          exact stored.symm.trans found

theorem indexed_inherit {table ancestor : MemberTable} (indexed : table.Indexed) :
    (table.inherit ancestor).Indexed := by
  rw [inherit_eq]
  exact indexed_foldl_perform indexed _

theorem names_inherit {table ancestor : MemberTable} (indexed : table.Indexed) :
    (table.inherit ancestor).names = (table.names ++ ancestor.names).eraseDups := by
  rw [inherit_eq, names_foldl_perform indexed, List.map_map]
  rfl

theorem find?_inherit {table ancestor : MemberTable} (indexed : table.Indexed)
    (ancestorIndexed : ancestor.Indexed) (name : String) :
    (table.inherit ancestor).find? name = (table.find? name).or (ancestor.find? name) := by
  rw [inherit_eq, find?_foldl_perform indexed, List.filter_map, List.foldl_map,
    ← ancestorIndexed.find?_members name, ← List.head?_filter]
  exact foldl_inherited ..

theorem foldl_inherit {table : MemberTable} (indexed : table.Indexed) {levels : List MemberTable}
    (levelsIndexed : ∀ level ∈ levels, level.Indexed) :
    let whole := levels.foldl inherit table
    whole.Indexed ∧
      whole.names = (table.names ++ levels.flatMap names).eraseDups ∧
      ∀ name, whole.find? name =
        (table.find? name).or (levels.findSome? fun level => level.find? name) := by
  induction levels generalizing table with
  | nil => exact ⟨indexed, by simp [eraseDups_of_nodup indexed.nodup_names], by simp⟩
  | cons level levels induction =>
      have levelIndexed := levelsIndexed level (List.mem_cons_self ..)
      rcases induction (@indexed_inherit table level indexed) fun other member =>
        levelsIndexed other (List.mem_cons_of_mem _ member) with ⟨still, order, lookup⟩
      refine ⟨still, ?_, fun name => ?_⟩
      · rw [List.foldl_cons, order, names_inherit indexed, eraseDups_eraseDups_append,
          List.append_assoc, List.flatMap_cons]
      · rw [List.foldl_cons, lookup, find?_inherit indexed levelIndexed, List.findSome?_cons,
          Option.or_assoc]
        cases level.find? name <;> rfl

end MemberTable

end MemberStubs
