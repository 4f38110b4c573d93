import MemberStubs.Proofs.Store.Location
import MemberStubs.Proofs.Store.Yields

/-! Artifacts on a disk. Directories that are missing are made, and then each file is written. A
file that is no artifact stays as it is, and so does an artifact when others are written after it.
-/

namespace MemberStubs

namespace Disk

/-! ## Names in a directory -/

theorem getLast?_of_follow? {disk : Disk} {name : String} (notDot : name ≠ ".")
    (notParent : name ≠ "..") {steps : List String} {location target : Location}
    (leads : disk.follow? location (steps ++ [name]) = some target) :
    target.getLast? = some name := by
  fun_induction follow? disk location steps with
  | case1 location =>
      rw [List.nil_append, follow?] at leads
      · split at leads
        · cases leads
          exact List.getLast?_concat
        · cases leads
      · exact notDot
      · exact notParent
  | case2 location later isDirectory induction =>
      rw [List.cons_append, follow?, if_pos isDirectory] at leads
      exact induction leads
  | case3 location later other =>
      rw [List.cons_append, follow?, if_neg other] at leads
      cases leads
  | case4 location later isDirectory induction =>
      rw [List.cons_append, follow?, if_pos isDirectory] at leads
      exact induction leads
  | case5 location later other =>
      rw [List.cons_append, follow?, if_neg other] at leads
      cases leads
  | case6 location step later notDot notParent isDirectory induction =>
      rw [List.cons_append, follow?, if_pos isDirectory] at leads
      · exact induction leads
      · exact notDot
      · exact notParent
  | case7 location step later notDot notParent other =>
      rw [List.cons_append, follow?, if_neg other] at leads
      · cases leads
      · exact notDot
      · exact notParent

/-- A name in a directory is the last one of its location. -/
theorem getLast?_of_locate? {disk : Disk} {directory : Path} {name : String} {location : Location}
    (valid : Path.Component.IsName name.toList)
    (leads : disk.locate? (directory / name) = some location) :
    location.getLast? = some name := by
  rcases valid with ⟨nonempty, whole, notDot, notParent⟩
  have relative : (⟨name⟩ : Path).isAbsolute = false := by
    rw [Path.isAbsolute, decide_eq_false_iff_not]
    exact fun slash => whole (List.mem_of_head? slash)
  have step : Path.stepsOf name.toList = [.name name.toList] := by
    rw [Path.stepsOf, Path.pieces_of_slash_not_mem whole, List.filterMap_cons,
      Path.Component.ofPiece?, if_neg (not_or.mpr ⟨nonempty, notDot⟩), if_neg notParent]
    rfl
  have found := follow?_of_locate? leads
  have steps : Path.stepsOf (directory / name).text.toList =
      Path.stepsOf directory.text.toList ++ [.name name.toList] :=
    (Path.stepsOf_join relative).trans (by rw [step])
  rw [steps, List.map_append] at found
  have last : String.ofList (Path.Component.name name.toList).text = name := String.ofList_toList
  rw [List.map_singleton, last] at found
  refine getLast?_of_follow? ?_ ?_ found
  · rintro rfl
    exact notDot rfl
  · rintro rfl
    exact notParent rfl

theorem pairwise_locate?_names {disk : Disk} {directory : Path} {names : List String}
    (valid : ∀ name ∈ names, Path.Component.IsName name.toList) (distinct : names.Nodup)
    (there : ∀ name ∈ names, ∃ location, disk.locate? (directory / name) = some location) :
    names.Pairwise fun first second =>
      disk.locate? (directory / first) ≠ disk.locate? (directory / second) := by
  refine distinct.imp_of_mem fun {first second} held held' different same => ?_
  rcases there first held with ⟨location, leads⟩
  have last := getLast?_of_locate? (valid first held) leads
  have last' := getLast?_of_locate? (valid second held') (same ▸ leads)
  exact different (Option.some.inj (last.symm.trans last'))

/-! ## Files one after the other -/

/-- What writing files to a disk does to it. -/
structure Stored (disk next : Disk) (files : List (Path × String)) : Prop where
  keeps : disk.Keeps next
  located : ∀ file ∈ files, ∃ location, next.locate? file.1 = some location
  untouched : ∀ location bytes, disk.node? location = some (.file bytes) →
    (∀ file ∈ files, next.locate? file.1 ≠ some location) →
      next.node? location = some (.file bytes)

theorem Stored.bytes? {disk next : Disk} {files : List (Path × String)}
    (stored : disk.Stored next files) {path : Path} {bytes : List UInt8}
    (held : disk.bytes? path = some bytes)
    (away : ∀ file ∈ files, next.locate? path ≠ next.locate? file.1) :
    next.bytes? path = some bytes := by
  rcases bytes?_eq_some_iff.mp held with ⟨location, leads, found⟩
  have leads' := stored.keeps.locate? leads
  refine bytes?_eq_some_iff.mpr ⟨location, leads', stored.untouched location bytes found ?_⟩
  exact fun file member same => away file member (leads'.trans same.symm)

end Disk

namespace Artifacts

open Attempt

/-- A file is written to a disk that has more directories. -/
theorem exists_of_yields_storeFile {path : Path} {text : String} {disk next : Disk}
    (yields : (storeFile path text : Attempt (StateM Disk) _).Yields disk () next) :
    ∃ between, disk.Extends between ∧
      between.write? path (Text.utf8Bytes text) = some next := by
  rw [storeFile] at yields
  cases parent? : path.parent? with
  | none =>
      simp only [parent?, yields_during_iff, FileStore.yields_writeText_iff] at yields
      exact ⟨disk, .refl _, yields⟩
  | some parent =>
      simp only [parent?, yields_bind_iff, yields_during_iff, FileStore.yields_writeText_iff]
        at yields
      rcases yields with ⟨⟨⟩, between, made, written⟩
      have extended := Disk.Extends.makeDirectory disk parent
      rw [FileStore.yields_createDirectory_iff.mp made] at extended
      exact ⟨between, extended, written⟩

theorem stored_of_yields_storeFile {path : Path} {text : String} {disk next : Disk}
    (yields : (storeFile path text : Attempt (StateM Disk) _).Yields disk () next) :
    disk.Stored next [(path, text)] ∧ next.bytes? path = some (Text.utf8Bytes text) := by
  rcases exists_of_yields_storeFile yields with ⟨between, extended, written⟩
  rcases Disk.write?_eq_some_iff.mp written with ⟨location, leads, other, rfl⟩
  have keeps : between.Keeps (between.set location (.file (Text.utf8Bytes text))) :=
    Disk.keeps_set_file other
  have below := Disk.ne_nil_of_not_directory other
  refine ⟨⟨extended.keeps.trans keeps, fun file member => ?_,
    fun location' bytes held away => ?_⟩, ?_⟩
  · cases List.mem_singleton.mp member
    exact ⟨location, keeps.locate? leads⟩
  · rw [Disk.node?_set below, if_neg]
    · exact extended.node _ _ held
    · rintro rfl
      exact away _ (List.mem_singleton.mpr rfl) (keeps.locate? leads)
  · refine Disk.bytes?_eq_some_iff.mpr ⟨location, keeps.locate? leads, ?_⟩
    rw [Disk.node?_set below, if_pos rfl]

/-- Files that are stored one after the other are all there in the end if no two of them are one. -/
theorem stored_of_yields_forM {files : List (Path × String)} {disk next : Disk}
    (yields : (forM files (fun file => storeFile file.1 file.2) : Attempt (StateM Disk) _).Yields
      disk () next) :
    disk.Stored next files ∧
      ((files.Pairwise fun first second => next.locate? first.1 ≠ next.locate? second.1) →
        ∀ file ∈ files, next.bytes? file.1 = some (Text.utf8Bytes file.2)) := by
  induction files generalizing disk with
  | nil =>
      cases yields_forM_nil_iff.mp yields
      exact ⟨⟨.refl _, nofun, fun _ _ held _ => held⟩, fun _ => nofun⟩
  | cons file later induction =>
      rcases yields_forM_cons_iff.mp yields with ⟨between, first, rest⟩
      rcases stored_of_yields_storeFile first with ⟨written, bytes⟩
      rcases induction rest with ⟨stored, all⟩
      refine ⟨⟨written.keeps.trans stored.keeps, ?_, ?_⟩, ?_⟩
      · intro other member
        rcases List.mem_cons.mp member with rfl | member
        · rcases written.located _ (List.mem_singleton.mpr rfl) with ⟨location, leads⟩
          exact ⟨location, stored.keeps.locate? leads⟩
        · exact stored.located other member
      · intro location bytes held away
        refine stored.untouched location bytes (written.untouched location bytes held ?_)
          fun other member => away other (List.mem_cons_of_mem _ member)
        intro other member leads
        cases List.mem_singleton.mp member
        exact away file (List.mem_cons_self ..) (stored.keeps.locate? leads)
      · intro apart other member
        rcases List.pairwise_cons.mp apart with ⟨different, apart⟩
        rcases List.mem_cons.mp member with rfl | member
        · rcases Disk.bytes?_eq_some_iff.mp bytes with ⟨location, leads, held⟩
          have leads' := stored.keeps.locate? leads
          refine Disk.bytes?_eq_some_iff.mpr ⟨location, leads', ?_⟩
          exact stored.untouched location _ held fun next member same =>
            different next member (leads'.trans same.symm)
        · exact all apart other member

theorem stored_of_yields {artifacts : Artifacts} {disk next : Disk}
    (yields : (store artifacts : Attempt (StateM Disk) _).Yields disk () next) :
    disk.Stored next artifacts.files ∧
      ((artifacts.files.Pairwise fun first second =>
          next.locate? first.1 ≠ next.locate? second.1) →
        ∀ file ∈ artifacts.files, next.bytes? file.1 = some (Text.utf8Bytes file.2)) := by
  simp only [store, yields_bind_iff, yields_during_iff] at yields
  rcases yields with ⟨⟨⟩, between, made, rest⟩
  have extended := Disk.Extends.makeDirectory disk artifacts.directory
  rw [FileStore.yields_createDirectory_iff.mp made] at extended
  rcases stored_of_yields_forM rest with ⟨stored, all⟩
  exact ⟨⟨extended.keeps.trans stored.keeps, stored.located, fun location bytes held =>
    stored.untouched location bytes (extended.node _ _ held)⟩, all⟩

end Artifacts

end MemberStubs
