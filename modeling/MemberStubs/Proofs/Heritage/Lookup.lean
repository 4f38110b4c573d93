import MemberStubs.Repair.Program

/-! A name stands for the first declaration that bears it, files before externals: the index of a
program agrees with a search through the declarations of its snapshot. -/

namespace MemberStubs

/-- All declarations, in the order in which a name looks for its own. -/
def Snapshot.declarations (snapshot : Snapshot) : List ClassDecl :=
  snapshot.files.flatMap SourceFile.classes ++ snapshot.externals

def Snapshot.declared? (snapshot : Snapshot) (name : String) : Option ClassDecl :=
  snapshot.declarations.find? (·.name = some name)

theorem Snapshot.name_of_declared? {snapshot : Snapshot} {name : String} {decl : ClassDecl}
    (found : snapshot.declared? name = some decl) : decl.name = some name := by
  simpa using List.find?_some found

namespace Program

/-! ## The index -/

private theorem getElem?_foldl_addPlace (index : Std.HashMap String DeclPlace)
    (entries : List (Option String × DeclPlace)) (name : String) :
    (entries.foldl addPlace index)[name]? =
      index[name]?.or ((entries.find? (·.1 = some name)).map Prod.snd) := by
  induction entries generalizing index with
  | nil => simp
  | cons entry entries induction =>
      rw [List.foldl_cons, induction, List.find?_cons]
      rcases entry with ⟨bearer | bearer, place⟩
      · simp [addPlace]
      · rw [addPlace, Std.HashMap.getElem?_insertIfNew]
        by_cases same : bearer = name
        · subst same
          cases known : index[bearer]? with
          | none =>
              have fresh : bearer ∉ index := by simpa using known
              simp [fresh]
          | some first =>
              have present : bearer ∈ index := by
                simpa using Option.isSome_of_eq_some known
              simp [present]
        · simp [same]

private theorem map_mapIdx_eq_map {values : List α} {number : Nat → α → β} {change : β → γ}
    {plain : α → γ} (agree : ∀ position value, values[position]? = some value →
      change (number position value) = plain value) :
    (values.mapIdx number).map change = values.map plain := by
  apply List.ext_getElem?
  intro position
  rw [List.getElem?_map, List.getElem?_mapIdx, List.getElem?_map]
  cases found : values[position]? with
  | none => rfl
  | some value => simp [agree position value found]

/-- The places of a snapshot lead to its declarations, in order. -/
private theorem map_declAt?_places (snapshot : Snapshot) :
    (places snapshot).map (fun entry => (entry.1, declAt? snapshot entry.2)) =
      snapshot.declarations.map fun decl => (decl.name, some decl) := by
  rw [places, List.map_append, Snapshot.declarations, List.map_append]
  congr 1
  · rw [List.map_flatten, List.map_flatMap, List.flatMap_def]
    congr 1
    apply map_mapIdx_eq_map
    intro fileIndex file atFile
    apply map_mapIdx_eq_map
    intro declIndex decl atDecl
    simp [declAt?, atFile, atDecl]
  · apply map_mapIdx_eq_map
    intro declIndex decl atDecl
    simp [declAt?, atDecl]

theorem lookup?_ofSnapshot (snapshot : Snapshot) (name : String) :
    (ofSnapshot snapshot).lookup? name = snapshot.declared? name := by
  have found := congrArg
    (fun entries => (entries.find? fun entry => entry.1 = some name).bind Prod.snd)
    (map_declAt?_places snapshot)
  simp only [List.find?_map, Option.bind_map] at found
  rw [lookup?, ofSnapshot, getElem?_foldl_addPlace, Snapshot.declared?]
  simp only [Std.HashMap.getElem?_empty, Option.none_or, Option.bind_map]
  exact found.trans (Option.bind_fun_some _)

/-- Every name with a declaration is among the names of the program. -/
theorem mem_names_of_lookup? {program : Program} {name : String} {decl : ClassDecl}
    (found : program.lookup? name = some decl) : name ∈ program.names := by
  rcases Option.bind_eq_some_iff.mp found with ⟨place, known, _⟩
  rw [names, Std.HashMap.mem_keys, Std.HashMap.mem_iff_isSome_getElem?]
  exact Option.isSome_of_eq_some known

end Program

end MemberStubs
