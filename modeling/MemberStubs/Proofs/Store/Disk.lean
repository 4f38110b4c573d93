import Mathlib.Data.List.Basic
import MemberStubs.Store.Disk

/-! What operations change on a disk. Where a path leads depends on the directories alone, and no
operation takes a directory away, so a path that leads somewhere keeps leading there. A file changes
only when something is written to its location. -/

namespace MemberStubs.Disk

theorem lookup_filter {entries : List (Location × DiskNode)} {location other : Location}
    (different : other ≠ location) :
    (entries.filter fun entry => entry.1 ≠ location).lookup other = entries.lookup other := by
  induction entries with
  | nil => rfl
  | cons entry entries induction =>
      rcases entry with ⟨key, node⟩
      rw [List.filter_cons]
      by_cases written : key = location
      · subst written
        rw [if_neg (by simp), induction, List.lookup_cons, beq_false_of_ne different]
      · rw [if_pos (by simpa using written), List.lookup_cons, List.lookup_cons, induction]

theorem node?_set {disk : Disk} {location other : Location} {node : DiskNode}
    (below : location ≠ []) :
    (disk.set location node).node? other = if other = location then some node
      else disk.node? other := by
  rw [node?, node?, set]
  by_cases same : other = location
  · subst same
    simp [below]
  · rw [if_neg same, List.lookup_cons, beq_false_of_ne same, lookup_filter same]

theorem ne_nil_of_not_directory {disk : Disk} {location : Location}
    (other : disk.node? location ≠ some .directory) : location ≠ [] := by
  rintro rfl
  exact other rfl

/-! ## What lasts -/

/-- Directories stay directories. -/
structure Keeps (disk next : Disk) : Prop where
  current : next.current = disk.current
  directory : ∀ location, disk.node? location = some .directory →
    next.node? location = some .directory

namespace Keeps

theorem refl (disk : Disk) : disk.Keeps disk :=
  ⟨rfl, fun _ found => found⟩

theorem trans {first second third : Disk} (before : first.Keeps second)
    (after : second.Keeps third) : first.Keeps third :=
  ⟨after.current.trans before.current, fun location found =>
    after.directory location (before.directory location found)⟩

theorem follow? {disk next : Disk} (keeps : disk.Keeps next) {location target : Location}
    {steps : List String} (leads : disk.follow? location steps = some target) :
    next.follow? location steps = some target := by
  fun_induction Disk.follow? disk location steps with
  | case1 => simpa [Disk.follow?] using leads
  | case2 location later isDirectory induction =>
      rw [Disk.follow?, if_pos (keeps.directory _ isDirectory)]
      exact induction leads
  | case3 => cases leads
  | case4 location later isDirectory induction =>
      rw [Disk.follow?, if_pos (keeps.directory _ isDirectory)]
      exact induction leads
  | case5 => cases leads
  | case6 location name later _ _ isDirectory induction =>
      rw [Disk.follow?, if_pos (keeps.directory _ isDirectory)]
      · exact induction leads
      · assumption
      · assumption
  | case7 => cases leads

theorem locate? {disk next : Disk} (keeps : disk.Keeps next) {path : Path} {location : Location}
    (leads : disk.locate? path = some location) : next.locate? path = some location := by
  rw [Disk.locate?] at leads ⊢
  split at leads
  · cases leads
  · next valid =>
      rw [if_neg valid, start, keeps.current]
      exact keeps.follow? leads

end Keeps

theorem bytes?_eq_some_iff {disk : Disk} {path : Path} {bytes : List UInt8} :
    disk.bytes? path = some bytes ↔
      ∃ location, disk.locate? path = some location ∧
        disk.node? location = some (.file bytes) := by
  rw [bytes?, nodeAt?]
  cases disk.locate? path with
  | none => simp
  | some location =>
      rw [Option.bind_some]
      cases found : disk.node? location with
      | none => simp [found]
      | some node => cases node <;> simp [found]

/-! ## Writing -/

theorem write?_eq_some_iff {disk next : Disk} {path : Path} {bytes : List UInt8} :
    disk.write? path bytes = some next ↔
      ∃ location, disk.locate? path = some location ∧
        disk.node? location ≠ some .directory ∧ next = disk.set location (.file bytes) := by
  rw [write?]
  cases disk.locate? path with
  | none => simp
  | some location =>
      by_cases isDirectory : disk.node? location = some .directory <;>
        simp [isDirectory, eq_comm]

section

variable {disk : Disk} {location : Location} {bytes : List UInt8}

theorem keeps_set_file (other : disk.node? location ≠ some .directory) :
    disk.Keeps (disk.set location (.file bytes)) := by
  refine ⟨rfl, fun found isDirectory => ?_⟩
  rw [node?_set (ne_nil_of_not_directory other), if_neg]
  · exact isDirectory
  · rintro rfl
    exact other isDirectory

/-- A file that takes the place of a file makes no new way. -/
theorem set_file_keeps {old : List UInt8} (held : disk.node? location = some (.file old)) :
    (disk.set location (.file bytes)).Keeps disk := by
  have below : location ≠ [] := ne_nil_of_not_directory (by rw [held]; simp)
  refine ⟨rfl, fun found isDirectory => ?_⟩
  rw [node?_set below] at isDirectory
  split at isDirectory
  · cases isDirectory
  · exact isDirectory

end

/-! ## Making directories -/

/-- Everything that is there stays as it is. -/
structure Extends (disk next : Disk) : Prop where
  current : next.current = disk.current
  node : ∀ location node, disk.node? location = some node → next.node? location = some node

namespace Extends

theorem refl (disk : Disk) : disk.Extends disk :=
  ⟨rfl, fun _ _ found => found⟩

theorem trans {first second third : Disk} (before : first.Extends second)
    (after : second.Extends third) : first.Extends third :=
  ⟨after.current.trans before.current, fun location node found =>
    after.node location node (before.node location node found)⟩

theorem keeps {disk next : Disk} (extends' : disk.Extends next) : disk.Keeps next :=
  ⟨extends'.current, fun location found => extends'.node location .directory found⟩

theorem set {disk : Disk} {location : Location} (node : DiskNode)
    (free : disk.node? location = none) : disk.Extends (disk.set location node) := by
  refine ⟨rfl, fun other held found => ?_⟩
  rw [node?_set (ne_nil_of_not_directory (by rw [free]; simp)), if_neg]
  · exact found
  · rintro rfl
    rw [free] at found
    cases found

theorem makeSteps (disk : Disk) (location : Location) (steps : List String) :
    disk.Extends (disk.makeSteps location steps).1 := by
  fun_induction Disk.makeSteps disk location steps with
  | case1 => exact refl _
  | case2 _ _ _ induction => exact induction
  | case3 _ _ _ induction => exact induction
  | case4 _ _ _ _ _ _ _ _ induction => exact induction
  | case5 => exact refl _
  | case6 disk location name later _ _ next free induction => exact (set _ free).trans induction

theorem makeDirectory (disk : Disk) (path : Path) :
    disk.Extends (disk.makeDirectory path).1 := by
  rw [Disk.makeDirectory]
  split
  · exact refl _
  · exact makeSteps ..

end Extends

end MemberStubs.Disk
