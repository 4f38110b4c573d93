import Mathlib.Algebra.GroupWithZero.Nat
import MemberStubs.Proofs.Absorption.Effect

/-! Absorbing is settled and accounted for. What has been absorbed is declared, so the same edits
find nothing to add any more; what is counted is by how much the declarations have grown; and the
program that has absorbed is the one that its new snapshot makes. -/

namespace MemberStubs

/-! ## Nothing left to do -/

section

variable {test : α → Bool} {change : α → α × Nat} {values : List α}

theorem modifyFirst_of_idle
    (idle : ∀ value, values.find? test = some value → change value = (value, 0)) :
    modifyFirst test change values = (values, 0) := by
  induction values with
  | nil => rfl
  | cons value values induction =>
      rw [modifyFirst]
      cases passes : test value with
      | true =>
          have unchanged := idle value (by rw [List.find?_cons, passes])
          rw [if_pos rfl, unchanged]
      | false =>
          have rest := induction fun other found => idle other (by rw [List.find?_cons, passes, found])
          rw [if_neg Bool.false_ne_true, rest]

/-- The sum of sizes grows by what the change counts. -/
theorem sum_modifyFirst {size : α → Nat}
    (counts : ∀ value, size (change value).1 = size value + (change value).2) :
    ((modifyFirst test change values).1.map size).sum =
      (values.map size).sum + (modifyFirst test change values).2 := by
  induction values with
  | nil => rfl
  | cons value values induction =>
      rw [modifyFirst]
      split
      · simp only [List.map_cons, List.sum_cons, counts value]
        omega
      · simp only [List.map_cons, List.sum_cons, induction]
        omega

end

section

variable {step : σ → ε → σ × Nat}

theorem foldl_gaining_of_idle {state : σ} {edits : List ε}
    (idle : ∀ edit ∈ edits, step state edit = (state, 0)) (count : Nat) :
    edits.foldl (gaining step) (state, count) = (state, count) := by
  induction edits with
  | nil => rfl
  | cons edit edits induction =>
      have first := idle edit (List.mem_cons_self ..)
      rw [List.foldl_cons, gaining, first]
      exact induction fun other member => idle other (List.mem_cons_of_mem _ member)

theorem size_foldl_gaining {size : σ → Nat}
    (counts : ∀ state edit, size (step state edit).1 = size state + (step state edit).2)
    (edits : List ε) (state : σ) (count : Nat) :
    size (edits.foldl (gaining step) (state, count)).1 + count =
      size state + (edits.foldl (gaining step) (state, count)).2 := by
  induction edits generalizing state count with
  | nil => rfl
  | cons edit edits induction =>
      have first := counts state edit
      have rest := induction (step state edit).1 (count + (step state edit).2)
      show size (edits.foldl (gaining step) ((step state edit).1, count + (step state edit).2)).1 +
        count = size state +
          (edits.foldl (gaining step) ((step state edit).1, count + (step state edit).2)).2
      omega

end

namespace ClassDecl

theorem absorb_of_declares {decl : ClassDecl} {stubs : List Stub}
    (declares : ∀ stub ∈ stubs, decl.declares stub.name = true) :
    decl.absorb stubs = (decl, 0) := by
  have unchanged : stubs.foldl absorbStub decl = decl := by
    induction stubs with
    | nil => rfl
    | cons stub stubs induction =>
        have known := declares stub (List.mem_cons_self ..)
        rw [List.foldl_cons, absorbStub, if_pos known]
        exact induction fun other member => declares other (List.mem_cons_of_mem _ member)
  rw [absorb, unchanged, Nat.sub_self]

theorem length_absorb (decl : ClassDecl) (stubs : List Stub) :
    (decl.absorb stubs).1.members.length = decl.members.length + (decl.absorb stubs).2 := by
  rcases Grown.foldl_absorbStub decl stubs with ⟨added, grown, _⟩
  simp only [absorb, grown, List.length_append]
  omega

end ClassDecl

namespace SourceFile

theorem absorbClass_of_declares {file : SourceFile} {edit : ClassEdit}
    (declares : file.Declares edit) : file.absorbClass edit = (file, 0) := by
  have idle : modifyFirst (fun decl => decl.span.start = edit.key.start)
      (fun decl => decl.absorb edit.stubs) file.classes = (file.classes, 0) :=
    modifyFirst_of_idle fun decl found => ClassDecl.absorb_of_declares (declares decl found)
  rw [absorbClass, idle]

theorem absorb_of_declares {file : SourceFile} {edits : List ClassEdit}
    (declares : ∀ edit ∈ edits, file.Declares edit) : file.absorb edits = (file, 0) :=
  foldl_gaining_of_idle (fun edit member => absorbClass_of_declares (declares edit member)) 0

def memberCount (file : SourceFile) : Nat :=
  (file.classes.map (·.members.length)).sum

theorem memberCount_absorbClass (file : SourceFile) (edit : ClassEdit) :
    (file.absorbClass edit).1.memberCount = file.memberCount + (file.absorbClass edit).2 :=
  sum_modifyFirst fun decl => decl.length_absorb edit.stubs

theorem memberCount_absorb (file : SourceFile) (edits : List ClassEdit) :
    (file.absorb edits).1.memberCount = file.memberCount + (file.absorb edits).2 :=
  size_foldl_gaining memberCount_absorbClass edits file 0

end SourceFile

namespace Snapshot

theorem absorbFile_of_declares {snapshot : Snapshot} {edit : FileEdit}
    (declares : snapshot.Declares edit) : snapshot.absorbFile edit = (snapshot, 0) := by
  have idle : modifyFirst (fun file => file.path.sameFile edit.path)
      (fun file => file.absorb edit.classes) snapshot.files = (snapshot.files, 0) :=
    modifyFirst_of_idle fun file found => SourceFile.absorb_of_declares (declares file found)
  rw [absorbFile, idle]

/-- Once is enough. -/
theorem absorb_absorb (snapshot : Snapshot) (edits : EditSet) :
    (snapshot.absorb edits).1.absorb edits = ((snapshot.absorb edits).1, 0) :=
  foldl_gaining_of_idle
    (fun _ member => absorbFile_of_declares (snapshot.declares_absorb member)) 0

/-- Externals have no source: nothing is absorbed there, and they are not counted. -/
def memberCount (snapshot : Snapshot) : Nat :=
  (snapshot.files.map SourceFile.memberCount).sum

theorem memberCount_absorbFile (snapshot : Snapshot) (edit : FileEdit) :
    (snapshot.absorbFile edit).1.memberCount =
      snapshot.memberCount + (snapshot.absorbFile edit).2 :=
  sum_modifyFirst fun file => file.memberCount_absorb edit.classes

theorem memberCount_absorb (snapshot : Snapshot) (edits : EditSet) :
    (snapshot.absorb edits).1.memberCount = snapshot.memberCount + (snapshot.absorb edits).2 :=
  size_foldl_gaining memberCount_absorbFile edits.files snapshot 0

theorem schema_absorb (snapshot : Snapshot) (edits : EditSet) :
    (snapshot.absorb edits).1.schema = snapshot.schema := by
  rw [fst_absorb]
  have keeps (current : Snapshot) (edit : FileEdit) :
      current.schema = (current.absorbFile edit).1.schema := rfl
  exact (@foldl_of_trans _ _ _ (fun before after => before.schema = after.schema) (fun _ => rfl)
    Eq.trans keeps edits.files snapshot).symm

end Snapshot

/-! ## The index -/

theorem mapIdx_eq_of_forall₂ {related : α → β → Prop} {first : List α} {second : List β}
    (pairs : List.Forall₂ related first second) {view : Nat → α → γ} {view' : Nat → β → γ}
    (agree : ∀ {a b}, related a b → ∀ position, view position a = view' position b) :
    first.mapIdx view = second.mapIdx view' := by
  apply List.ext_getElem?
  intro position
  rw [List.getElem?_mapIdx, List.getElem?_mapIdx]
  have pair := rel_getElem? pairs position
  generalize first[position]? = value at pair ⊢
  generalize second[position]? = value' at pair ⊢
  cases pair with
  | none => rfl
  | some pair => exact congrArg some (agree pair position)

namespace Program

/-- Growth moves no declaration and renames none. -/
theorem places_of_grown {before after : Snapshot} (grown : Snapshot.Grown before after) :
    places after = places before := by
  have inFiles : before.files.mapIdx placesInFile = after.files.mapIdx placesInFile :=
    mapIdx_eq_of_forall₂ grown.files fun source fileIndex =>
      mapIdx_eq_of_forall₂ source.classes fun decl declIndex => by rw [decl.name_eq]
  rw [places, places, inFiles, grown.externals_eq]

theorem absorb_ofSnapshot (snapshot : Snapshot) (edits : EditSet) :
    (ofSnapshot snapshot).absorb edits =
      (ofSnapshot (snapshot.absorb edits).1, (snapshot.absorb edits).2) := by
  have indexed := places_of_grown (Snapshot.Grown.absorb snapshot edits)
  rw [absorb, ofSnapshot, ofSnapshot, indexed]

end Program

end MemberStubs
