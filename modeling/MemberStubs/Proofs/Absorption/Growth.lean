import Mathlib.Data.List.Forall2
import MemberStubs.Repair.Program

/-! Absorbing edits makes classes grow and does nothing else. A class that has grown has more members
at its end. They are concrete, and their names are new to the class. Classes, files and snapshots that
have grown are found where they were found before. -/

namespace MemberStubs

/-! ## Lists side by side -/

section

variable {related : α → β → Prop} {first : List α} {second : List β}

theorem forall₂_trans {before between after : List α} {step : α → α → Prop}
    (trans : ∀ {a b c}, step a b → step b c → step a c)
    (early : List.Forall₂ step before between) (late : List.Forall₂ step between after) :
    List.Forall₂ step before after := by
  induction early generalizing after with
  | nil => exact late
  | cons head _ induction =>
      cases late with
      | cons next rest => exact .cons (trans head next) (induction rest)

theorem rel_find? (pairs : List.Forall₂ related first second) {test : α → Bool} {test' : β → Bool}
    (agree : ∀ {a b}, related a b → test a = test' b) :
    Option.Rel related (first.find? test) (second.find? test') := by
  induction pairs with
  | nil => exact .none
  | cons head _ induction =>
      rw [List.find?_cons, List.find?_cons, ← agree head]
      split
      · exact .some head
      · exact induction

theorem rel_getElem? (pairs : List.Forall₂ related first second) (position : Nat) :
    Option.Rel related first[position]? second[position]? := by
  induction pairs generalizing position with
  | nil => exact .none
  | cons head _ induction =>
      cases position with
      | zero => exact .some head
      | succ position => exact induction position

theorem map_eq_of_forall₂ (pairs : List.Forall₂ related first second) {view : α → γ}
    {view' : β → γ} (agree : ∀ {a b}, related a b → view a = view' b) :
    first.map view = second.map view' := by
  induction pairs with
  | nil => rfl
  | cons head _ induction => rw [List.map_cons, List.map_cons, agree head, induction]

end

theorem rel_bind {related : α → β → Prop} {related' : γ → δ → Prop} {first : Option α}
    {second : Option β} (pair : Option.Rel related first second) {next : α → Option γ}
    {next' : β → Option δ} (onward : ∀ {a b}, related a b → Option.Rel related' (next a) (next' b)) :
    Option.Rel related' (first.bind next) (second.bind next') := by
  cases pair with
  | none => exact .none
  | some pair => exact onward pair

theorem exists_of_rel_some {related : α → β → Prop} {first : Option α} {value : β}
    (pair : Option.Rel related first (some value)) :
    ∃ other, first = some other ∧ related other value := by
  cases pair with
  | some pair => exact ⟨_, rfl, pair⟩

theorem forall₂_modifyFirst {step : α → α → Prop} (refl : ∀ value, step value value)
    {change : α → α × Nat} (changes : ∀ value, step value (change value).1) (test : α → Bool)
    (values : List α) : List.Forall₂ step values (modifyFirst test change values).1 := by
  induction values with
  | nil => exact .nil
  | cons value values induction =>
      rw [modifyFirst]
      split
      · exact .cons (changes value) (List.forall₂_same.mpr fun other _ => refl other)
      · exact .cons (refl value) induction

/-! ## Classes -/

namespace ClassDecl

def Grown (before after : ClassDecl) : Prop :=
  ∃ added : List Member, after = { before with members := before.members ++ added } ∧
    ∀ member ∈ added, member.isAbstract = false ∧ before.declares member.name = false

theorem declares_append (decl : ClassDecl) (added : List Member) (name : String) :
    { decl with members := decl.members ++ added }.declares name =
      (decl.declares name || added.any fun member => member.name = name) :=
  List.any_append

namespace Grown

variable {before between after : ClassDecl}

theorem refl (decl : ClassDecl) : Grown decl decl :=
  ⟨[], by rw [List.append_nil], by simp⟩

theorem trans (early : Grown before between) (late : Grown between after) :
    Grown before after := by
  rcases early with ⟨first, rfl, firstNew⟩
  rcases late with ⟨second, rfl, secondNew⟩
  refine ⟨first ++ second, by rw [List.append_assoc], fun member added => ?_⟩
  rcases List.mem_append.mp added with added | added
  · exact firstNew member added
  · have new := secondNew member added
    rw [declares_append, Bool.or_eq_false_iff] at new
    exact ⟨new.1, new.2.1⟩

theorem declares (grown : Grown before after) {name : String}
    (declared : before.declares name = true) : after.declares name = true := by
  rcases grown with ⟨added, rfl, _⟩
  rw [declares_append, declared, Bool.true_or]

theorem span_eq (grown : Grown before after) : after.span = before.span := by
  rcases grown with ⟨_, rfl, _⟩
  rfl

theorem name_eq (grown : Grown before after) : after.name = before.name := by
  rcases grown with ⟨_, rfl, _⟩
  rfl

theorem openBrace_eq (grown : Grown before after) : after.openBrace = before.openBrace := by
  rcases grown with ⟨_, rfl, _⟩
  rfl

theorem nameSpan_eq (grown : Grown before after) : after.nameSpan = before.nameSpan := by
  rcases grown with ⟨_, rfl, _⟩
  rfl

theorem isClass_eq (grown : Grown before after) : after.isClass = before.isClass := by
  rcases grown with ⟨_, rfl, _⟩
  rfl

theorem bases_eq (grown : Grown before after) : after.bases = before.bases := by
  rcases grown with ⟨_, rfl, _⟩
  rfl

theorem absorbStub (decl : ClassDecl) (stub : Stub) : Grown decl (decl.absorbStub stub) := by
  rw [ClassDecl.absorbStub]
  split
  · exact refl decl
  · next new =>
      refine ⟨[{ name := stub.name, shape := stub.kind.declaredShape }], rfl, ?_⟩
      intro member added
      rw [List.mem_singleton.mp added]
      exact ⟨rfl, Bool.eq_false_iff.mpr new⟩

theorem foldl_absorbStub (decl : ClassDecl) (stubs : List Stub) :
    Grown decl (stubs.foldl ClassDecl.absorbStub decl) := by
  induction stubs generalizing decl with
  | nil => exact refl decl
  | cons stub stubs induction => exact (absorbStub decl stub).trans (induction _)

end Grown

end ClassDecl

/-! ## Files and snapshots -/

structure SourceFile.Grown (before after : SourceFile) : Prop where
  path_eq : after.path = before.path
  classes : List.Forall₂ ClassDecl.Grown before.classes after.classes

namespace SourceFile.Grown

variable {before between after : SourceFile}

theorem refl (file : SourceFile) : Grown file file :=
  ⟨rfl, List.forall₂_same.mpr fun decl _ => ClassDecl.Grown.refl decl⟩

theorem trans (early : Grown before between) (late : Grown between after) : Grown before after :=
  ⟨late.path_eq.trans early.path_eq,
    forall₂_trans ClassDecl.Grown.trans early.classes late.classes⟩

theorem starts_eq (grown : Grown before after) :
    after.classes.map (·.span.start) = before.classes.map (·.span.start) :=
  (map_eq_of_forall₂ grown.classes fun decl => by rw [decl.span_eq]).symm

theorem absorbClass (file : SourceFile) (edit : ClassEdit) :
    Grown file (file.absorbClass edit).1 :=
  ⟨rfl, forall₂_modifyFirst ClassDecl.Grown.refl
    (fun decl => ClassDecl.Grown.foldl_absorbStub decl edit.stubs) _ file.classes⟩

end SourceFile.Grown

structure Snapshot.Grown (before after : Snapshot) : Prop where
  files : List.Forall₂ SourceFile.Grown before.files after.files
  externals_eq : after.externals = before.externals

/-! Each absorption is a sequence of smaller ones that counts what it gains on the way. -/

/-- A step with a count, as a step that adds to a count. -/
def gaining (step : σ → ε → σ × Nat) : σ × Nat → ε → σ × Nat :=
  fun (current, count) edit =>
    let (next, gained) := step current edit
    (next, count + gained)

theorem fst_foldl_gaining (step : σ → ε → σ × Nat) (edits : List ε) (state : σ) (count : Nat) :
    (edits.foldl (gaining step) (state, count)).1 =
      edits.foldl (fun current edit => (step current edit).1) state := by
  induction edits generalizing state count with
  | nil => rfl
  | cons edit edits induction => exact induction _ _

theorem foldl_of_trans {step : σ → ε → σ} {related : σ → σ → Prop}
    (refl : ∀ state, related state state)
    (trans : ∀ {a b c}, related a b → related b c → related a c)
    (steps : ∀ state edit, related state (step state edit)) (edits : List ε) (state : σ) :
    related state (edits.foldl step state) := by
  induction edits generalizing state with
  | nil => exact refl state
  | cons edit edits induction => exact trans (steps state edit) (induction _)

theorem SourceFile.fst_absorb (file : SourceFile) (edits : List ClassEdit) :
    (file.absorb edits).1 =
      edits.foldl (fun current edit => (current.absorbClass edit).1) file :=
  fst_foldl_gaining absorbClass edits file 0

theorem SourceFile.Grown.absorb (file : SourceFile) (edits : List ClassEdit) :
    Grown file (file.absorb edits).1 := by
  rw [fst_absorb]
  exact foldl_of_trans refl trans absorbClass edits file

theorem Snapshot.fst_absorb (snapshot : Snapshot) (edits : EditSet) :
    (snapshot.absorb edits).1 =
      edits.files.foldl (fun current edit => (current.absorbFile edit).1) snapshot :=
  fst_foldl_gaining absorbFile edits.files snapshot 0

namespace Snapshot.Grown

variable {before between after : Snapshot}

theorem refl (snapshot : Snapshot) : Grown snapshot snapshot :=
  ⟨List.forall₂_same.mpr fun file _ => SourceFile.Grown.refl file, rfl⟩

theorem trans (early : Grown before between) (late : Grown between after) : Grown before after :=
  ⟨forall₂_trans SourceFile.Grown.trans early.files late.files,
    late.externals_eq.trans early.externals_eq⟩

theorem absorbFile (snapshot : Snapshot) (edit : FileEdit) :
    Grown snapshot (snapshot.absorbFile edit).1 :=
  ⟨forall₂_modifyFirst SourceFile.Grown.refl
    (fun file => SourceFile.Grown.absorb file edit.classes) _ snapshot.files, rfl⟩

theorem absorb (snapshot : Snapshot) (edits : EditSet) :
    Grown snapshot (snapshot.absorb edits).1 := by
  rw [fst_absorb]
  exact foldl_of_trans refl trans absorbFile edits.files snapshot

theorem file? (grown : Grown before after) (path : Path) :
    Option.Rel SourceFile.Grown (before.file? path) (after.file? path) :=
  rel_find? grown.files fun file => by rw [file.path_eq]

theorem declAt? (grown : Grown before after) (place : DeclPlace) :
    Option.Rel ClassDecl.Grown (Program.declAt? before place) (Program.declAt? after place) := by
  cases place with
  | file file decl =>
      exact rel_bind (rel_getElem? grown.files file) fun source => rel_getElem? source.classes decl
  | external decl =>
      rw [Program.declAt?, Program.declAt?, grown.externals_eq]
      cases before.externals[decl]? with
      | none => exact .none
      | some same => exact .some (ClassDecl.Grown.refl same)

end Snapshot.Grown

/-! ## Programs -/

/-- A program that has grown is indexed as before. -/
structure Program.Grown (before after : Program) : Prop where
  snapshot : Snapshot.Grown before.snapshot after.snapshot
  index_eq : after.index = before.index

namespace Program.Grown

variable {before after : Program}

theorem absorb (program : Program) (edits : EditSet) : Grown program (program.absorb edits).1 :=
  ⟨Snapshot.Grown.absorb program.snapshot edits, rfl⟩

theorem names_eq (grown : Grown before after) : after.names = before.names := by
  rw [names, names, grown.index_eq]

theorem lookup? (grown : Grown before after) (name : String) :
    Option.Rel ClassDecl.Grown (before.lookup? name) (after.lookup? name) := by
  rw [Program.lookup?, Program.lookup?, grown.index_eq]
  cases before.index[name]? with
  | none => exact .none
  | some place => exact grown.snapshot.declAt? place

theorem innermost? {first second : List ClassDecl}
    (pairs : List.Forall₂ ClassDecl.Grown first second) :
    Option.Rel ClassDecl.Grown (Program.innermost? first) (Program.innermost? second) := by
  induction pairs with
  | nil => exact .none
  | @cons decl decl' decls decls' head _ induction =>
      rw [Program.innermost?, Program.innermost?]
      generalize Program.innermost? decls = early at induction
      generalize Program.innermost? decls' = late at induction
      cases induction with
      | none => exact .some head
      | some inner =>
          simp only [inner.span_eq, head.span_eq]
          split
          · exact .some inner
          · exact .some head

theorem declAtName? (grown : Grown before after) (file : Path) (position : UInt64) :
    Option.Rel ClassDecl.Grown (before.declAtName? file position)
      (after.declAtName? file position) := by
  refine rel_bind (grown.snapshot.file? file) fun source => ?_
  refine rel_bind (innermost? ?_) fun {decl decl'} pair => ?_
  · apply List.rel_filter _ source.classes
    intro decl decl' pair
    show decl.nameSpan.contains position = true ↔ decl'.nameSpan.contains position = true
    rw [pair.nameSpan_eq]
  · rw [pair.isClass_eq]
    split
    · exact .some pair
    · exact .none

end Program.Grown

end MemberStubs
