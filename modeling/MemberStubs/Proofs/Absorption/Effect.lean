import MemberStubs.Proofs.Absorption.Growth
import MemberStubs.Proofs.Path.NormalForm
import MemberStubs.Proofs.Repair.ClassRepair

/-! What absorbing a set of edits achieves. A class for which there is an edit declares the stubs of
the edit from then on. If the classes of the edits are there, are told apart, and declare none of the
stubs yet, then as many members are gained as there are stubs. -/

namespace MemberStubs

/-! ## The first element that passes a test -/

section

variable {test : α → Bool} {change : α → α × Nat} {values : List α}

theorem find?_modifyFirst (keeps : ∀ value, test (change value).1 = test value) :
    (modifyFirst test change values).1.find? test =
      (values.find? test).map fun value => (change value).1 := by
  induction values with
  | nil => rfl
  | cons value values induction =>
      rw [modifyFirst, List.find?_cons]
      cases passes : test value with
      | true => simp [keeps, passes]
      | false => simp [passes, induction]

/-- Changing an element leaves alone what another test finds. -/
theorem find?_modifyFirst_of_apart {other : α → Bool}
    (keeps : ∀ value, other (change value).1 = other value)
    (apart : ∀ value, test value = true → other value = false) :
    (modifyFirst test change values).1.find? other = values.find? other := by
  induction values with
  | nil => rfl
  | cons value values induction =>
      rw [modifyFirst, List.find?_cons]
      cases passes : test value with
      | true => simp [keeps, apart value passes]
      | false => simp [List.find?_cons, induction]

theorem count_modifyFirst {value : α} (found : values.find? test = some value) :
    (modifyFirst test change values).2 = (change value).2 := by
  induction values with
  | nil => cases found
  | cons first values induction =>
      rw [List.find?_cons] at found
      rw [modifyFirst]
      cases passes : test first with
      | true =>
          simp only [passes, Option.some.injEq] at found
          rw [found]
          rfl
      | false =>
          simp only [passes] at found
          exact induction found

end

/-! ## Steps one after another -/

/-- What a step does to its edit and no later step undoes holds in the end for every edit. -/
theorem done_foldl {step : σ → ε → σ} {done : σ → ε → Prop}
    (does : ∀ state edit, done (step state edit) edit)
    (keeps : ∀ state edit other, done state other → done (step state edit) other)
    {edits : List ε} {edit : ε} (member : edit ∈ edits) (state : σ) :
    done (edits.foldl step state) edit := by
  have stays : ∀ (later : List ε) (state : σ), done state edit →
      done (later.foldl step state) edit := by
    intro later
    induction later with
    | nil => exact fun _ holds => holds
    | cons other later induction => exact fun state holds => induction _ (keeps state other edit holds)
  induction edits generalizing state with
  | nil => cases member
  | cons first edits induction =>
      rcases List.mem_cons.mp member with rfl | member
      · exact stays edits _ (does state edit)
      · exact induction member _

/-- Steps that gain what their edits bring, as long as they do not meet, gain what all edits bring. -/
theorem snd_foldl_gaining (step : σ → ε → σ × Nat) {ready : σ → ε → Prop} {apart : ε → ε → Prop}
    {brings : ε → List β}
    (gains : ∀ state edit, ready state edit → (step state edit).2 = (brings edit).length)
    (keeps : ∀ state edit other, apart edit other → ready state other →
      ready (step state edit).1 other)
    {edits : List ε} (distinct : edits.Pairwise apart) {state : σ}
    (allReady : ∀ edit ∈ edits, ready state edit) (count : Nat) :
    (edits.foldl (gaining step) (state, count)).2 = count + (edits.flatMap brings).length := by
  induction edits generalizing state count with
  | nil => rfl
  | cons edit edits induction =>
      rcases List.pairwise_cons.mp distinct with ⟨others, distinct⟩
      have now := gains state edit (allReady edit (List.mem_cons_self ..))
      have rest := @induction distinct (step state edit).1 (fun other member =>
        keeps state edit other (others other member) (allReady other (List.mem_cons_of_mem _ member)))
        (count + (step state edit).2)
      rw [List.foldl_cons, List.flatMap_cons, List.length_append, ← now, ← Nat.add_assoc]
      exact rest

/-! ## Classes -/

namespace ClassDecl

theorem declares_absorbStub (decl : ClassDecl) (stub : Stub) :
    (decl.absorbStub stub).declares stub.name = true := by
  rw [absorbStub]
  split
  · next known => exact known
  · rw [declares_append]
    simp

theorem declares_absorb (decl : ClassDecl) {stubs : List Stub} {stub : Stub}
    (member : stub ∈ stubs) : (decl.absorb stubs).1.declares stub.name = true :=
  @done_foldl _ _ absorbStub (fun decl stub => decl.declares stub.name = true) declares_absorbStub
    (fun decl stub _ known => (Grown.absorbStub decl stub).declares known) _ _ member decl

theorem length_foldl_absorbStub {stubs : List Stub} (distinct : (stubs.map Stub.name).Nodup)
    {decl : ClassDecl} (new : ∀ stub ∈ stubs, decl.declares stub.name = false) :
    (stubs.foldl absorbStub decl).members.length = decl.members.length + stubs.length := by
  induction stubs generalizing decl with
  | nil => rfl
  | cons stub stubs induction =>
      rcases List.nodup_cons.mp distinct with ⟨others, distinct⟩
      have fresh := new stub (List.mem_cons_self ..)
      have grown : decl.absorbStub stub = { decl with
          members := decl.members ++ [{ name := stub.name, shape := stub.kind.declaredShape }] } :=
        if_neg (by rw [fresh]; exact Bool.false_ne_true)
      have rest : ∀ other ∈ stubs, (decl.absorbStub stub).declares other.name = false := by
        intro other member
        have different : stub.name ≠ other.name := fun same =>
          others (List.mem_map.mpr ⟨other, member, same.symm⟩)
        rw [grown, declares_append, new other (List.mem_cons_of_mem _ member)]
        simp [different]
      rw [List.foldl_cons, induction distinct rest, grown]
      simp only [List.length_append, List.length_cons, List.length_nil]
      omega

end ClassDecl

/-! ## Files -/

namespace SourceFile

/-- The class that absorbs the edits for a start. -/
def class? (file : SourceFile) (start : UInt64) : Option ClassDecl :=
  file.classes.find? fun decl => decl.span.start = start

/-- Whether the class of an edit declares its stubs. -/
def Declares (file : SourceFile) (edit : ClassEdit) : Prop :=
  ∀ decl, file.class? edit.key.start = some decl →
    ∀ stub ∈ edit.stubs, decl.declares stub.name = true

/-- Whether the class of an edit is there and can take every stub. -/
def Awaits (file : SourceFile) (edit : ClassEdit) : Prop :=
  ∃ decl, file.class? edit.key.start = some decl ∧ (edit.stubs.map Stub.name).Nodup ∧
    ∀ stub ∈ edit.stubs, decl.declares stub.name = false

theorem Grown.class? {before after : SourceFile} (grown : Grown before after) (start : UInt64) :
    Option.Rel ClassDecl.Grown (before.class? start) (after.class? start) :=
  rel_find? grown.classes fun decl => by rw [decl.span_eq]

theorem Declares.grown {before after : SourceFile} {edit : ClassEdit}
    (declares : before.Declares edit) (grown : Grown before after) : after.Declares edit := by
  intro decl found stub member
  have pair := grown.class? edit.key.start
  rw [found] at pair
  rcases exists_of_rel_some pair with ⟨old, known, pair⟩
  exact pair.declares (declares old known stub member)

theorem span_absorb (decl : ClassDecl) (stubs : List Stub) :
    (decl.absorb stubs).1.span = decl.span :=
  (ClassDecl.Grown.foldl_absorbStub decl stubs).span_eq

theorem declares_absorbClass (file : SourceFile) (edit : ClassEdit) :
    (file.absorbClass edit).1.Declares edit := by
  intro decl found stub member
  have changed : (file.absorbClass edit).1.class? edit.key.start =
      (file.class? edit.key.start).map fun decl => (decl.absorb edit.stubs).1 :=
    find?_modifyFirst fun decl => by rw [span_absorb]
  rw [changed] at found
  rcases Option.map_eq_some_iff.mp found with ⟨old, _, rfl⟩
  exact old.declares_absorb member

theorem gained_absorbClass {file : SourceFile} {edit : ClassEdit} (awaits : file.Awaits edit) :
    (file.absorbClass edit).2 = edit.stubs.length := by
  rcases awaits with ⟨decl, found, distinct, new⟩
  have gained : (file.absorbClass edit).2 = (decl.absorb edit.stubs).2 := count_modifyFirst found
  rw [gained, ClassDecl.absorb, ClassDecl.length_foldl_absorbStub distinct new]
  exact Nat.add_sub_cancel_left ..

theorem Awaits.absorbClass {file : SourceFile} {edit other : ClassEdit}
    (apart : edit.key.start ≠ other.key.start) (awaits : file.Awaits other) :
    (file.absorbClass edit).1.Awaits other := by
  rcases awaits with ⟨decl, found, rest⟩
  refine ⟨decl, ?_, rest⟩
  rw [← found]
  apply find?_modifyFirst_of_apart
  · intro decl
    rw [span_absorb]
  · intro decl here
    simp only [decide_eq_true_eq, decide_eq_false_iff_not] at here ⊢
    rw [here]
    exact apart

theorem declares_absorb (file : SourceFile) {edits : List ClassEdit} {edit : ClassEdit}
    (member : edit ∈ edits) : (file.absorb edits).1.Declares edit := by
  rw [fst_absorb]
  exact done_foldl declares_absorbClass
    (fun current edit _ declares => declares.grown (Grown.absorbClass current edit)) member file

theorem gained_absorb {file : SourceFile} {edits : List ClassEdit}
    (distinct : edits.Pairwise fun first second => first.key.start ≠ second.key.start)
    (awaits : ∀ edit ∈ edits, file.Awaits edit) :
    (file.absorb edits).2 = (edits.flatMap ClassEdit.stubs).length := by
  have whole : (file.absorb edits).2 = 0 + (edits.flatMap ClassEdit.stubs).length :=
    snd_foldl_gaining absorbClass (fun _ _ => gained_absorbClass)
      (fun _ _ _ => Awaits.absorbClass) distinct awaits 0
  rw [whole, Nat.zero_add]

end SourceFile

/-! ## Snapshots -/

namespace Snapshot

def Declares (snapshot : Snapshot) (edit : FileEdit) : Prop :=
  ∀ file, snapshot.file? edit.path = some file → ∀ one ∈ edit.classes, file.Declares one

def Awaits (snapshot : Snapshot) (edit : FileEdit) : Prop :=
  ∃ file, snapshot.file? edit.path = some file ∧
    (edit.classes.Pairwise fun first second => first.key.start ≠ second.key.start) ∧
    ∀ one ∈ edit.classes, file.Awaits one

theorem Declares.grown {before after : Snapshot} {edit : FileEdit}
    (declares : before.Declares edit) (grown : Grown before after) : after.Declares edit := by
  intro file found one member
  have pair := grown.file? edit.path
  rw [found] at pair
  rcases exists_of_rel_some pair with ⟨old, known, pair⟩
  exact (declares old known one member).grown pair

theorem path_absorb (file : SourceFile) (edits : List ClassEdit) :
    (file.absorb edits).1.path = file.path :=
  (SourceFile.Grown.absorb file edits).path_eq

theorem file?_absorbFile (snapshot : Snapshot) (edit : FileEdit) :
    (snapshot.absorbFile edit).1.file? edit.path =
      (snapshot.file? edit.path).map fun file => (file.absorb edit.classes).1 :=
  find?_modifyFirst fun file => by rw [path_absorb]

theorem file?_absorbFile_of_ne {edit : FileEdit} {path : Path}
    (apart : edit.path.normalize ≠ path.normalize) (snapshot : Snapshot) :
    (snapshot.absorbFile edit).1.file? path = snapshot.file? path := by
  apply find?_modifyFirst_of_apart
  · intro file
    rw [path_absorb]
  · intro file here
    rw [Bool.eq_false_iff]
    intro there
    exact apart ((Path.sameFile_iff.mp here).symm.trans (Path.sameFile_iff.mp there))

theorem declares_absorbFile (snapshot : Snapshot) (edit : FileEdit) :
    (snapshot.absorbFile edit).1.Declares edit := by
  intro file found one member
  rw [file?_absorbFile] at found
  rcases Option.map_eq_some_iff.mp found with ⟨old, _, rfl⟩
  exact old.declares_absorb member

theorem gained_absorbFile {snapshot : Snapshot} {edit : FileEdit} (awaits : snapshot.Awaits edit) :
    (snapshot.absorbFile edit).2 = (edit.classes.flatMap ClassEdit.stubs).length := by
  rcases awaits with ⟨file, found, distinct, awaits⟩
  have gained : (snapshot.absorbFile edit).2 = (file.absorb edit.classes).2 :=
    count_modifyFirst found
  rw [gained, SourceFile.gained_absorb distinct awaits]

theorem Awaits.absorbFile {snapshot : Snapshot} {edit other : FileEdit}
    (apart : edit.path.normalize ≠ other.path.normalize) (awaits : snapshot.Awaits other) :
    (snapshot.absorbFile edit).1.Awaits other := by
  rcases awaits with ⟨file, found, rest⟩
  exact ⟨file, (file?_absorbFile_of_ne apart snapshot).trans found, rest⟩

theorem declares_absorb (snapshot : Snapshot) {edits : EditSet} {edit : FileEdit}
    (member : edit ∈ edits.files) : (snapshot.absorb edits).1.Declares edit := by
  rw [fst_absorb]
  exact done_foldl declares_absorbFile
    (fun current edit _ declares => declares.grown (Grown.absorbFile current edit)) member snapshot

theorem gained_absorb {snapshot : Snapshot} {edits : EditSet}
    (distinct : edits.files.Pairwise fun first second =>
      first.path.normalize ≠ second.path.normalize)
    (awaits : ∀ edit ∈ edits.files, snapshot.Awaits edit) :
    (snapshot.absorb edits).2 = edits.stubCount := by
  have whole : (snapshot.absorb edits).2 = 0 + (edits.files.flatMap fun edit =>
      edit.classes.flatMap ClassEdit.stubs).length :=
    snd_foldl_gaining absorbFile (fun _ _ => gained_absorbFile)
      (fun _ _ _ => Awaits.absorbFile) distinct awaits 0
  rw [whole, Nat.zero_add, EditSet.stubCount, EditSet.classes, List.flatMap_assoc]

end Snapshot

end MemberStubs
