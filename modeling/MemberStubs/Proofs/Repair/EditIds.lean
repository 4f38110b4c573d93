import MemberStubs.Proofs.Json.Number
import MemberStubs.Proofs.Repair.Batch
import MemberStubs.Proofs.Repair.Exactness

/-! What the id of an edit tells. An id is the digest of one text, in which bars stand between the
file, the start of the class and the members, and commas between the names of the members. Bars and
commas may stand in files and in names as well. So the text tells the pieces between the commas and
not the names, and there may be a second way to take it apart, in which the file goes on into the
names. -/

namespace MemberStubs

/-! ## Texts between bars -/

/-- In front of the first bar of one text, the other one has its first part or more than that. -/
theorem append_bar_eq_iff {part front rest rest' : List Char} (whole : '|' ∉ part) :
    part ++ '|' :: rest = front ++ '|' :: rest' ↔
      ∃ more, front = part ++ more ∧ '|' :: rest = more ++ '|' :: rest' := by
  constructor
  · intro same
    rcases List.append_eq_append_iff.mp same with later | ⟨more, longer, behind⟩
    · exact later
    · cases more with
      | nil =>
          rw [List.append_nil] at longer
          exact ⟨[], by rw [longer, List.append_nil], behind.symm⟩
      | cons c more =>
          cases behind
          exact absurd (longer ▸ List.mem_append_right _ (List.mem_cons_self ..)) whole
  · rintro ⟨more, rfl, behind⟩
    rw [behind, List.append_assoc]

theorem append_bar_inj {part part' rest rest' : List Char} (whole : '|' ∉ part)
    (whole' : '|' ∉ part') :
    part ++ '|' :: rest = part' ++ '|' :: rest' ↔ part = part' ∧ rest = rest' := by
  constructor
  · intro same
    rcases (append_bar_eq_iff whole).mp same with ⟨more, rfl, behind⟩
    cases more with
    | nil =>
        cases behind
        exact ⟨(List.append_nil _).symm, rfl⟩
    | cons c more =>
        cases behind
        exact absurd (List.mem_append_right _ (List.mem_cons_self ..)) whole'
  · rintro ⟨rfl, rfl⟩
    rfl

/-- The first part of one text may hold the first two parts of another. -/
def Overlaps (file number rest file' number' rest' : List Char) : Prop :=
  ∃ more, file' = file ++ '|' :: (number ++ more) ∧
    '|' :: rest = more ++ '|' :: (number' ++ '|' :: rest')

theorem Overlaps.append_eq {file number rest file' number' rest' : List Char}
    (overlaps : Overlaps file number rest file' number' rest') :
    file ++ '|' :: (number ++ '|' :: rest) = file' ++ '|' :: (number' ++ '|' :: rest') := by
  rcases overlaps with ⟨more, rfl, behind⟩
  rw [behind, List.append_assoc, List.cons_append, List.append_assoc]

/-- The first part of one text begins with the first part of the other. -/
private theorem overlaps_of_longer {file number rest number' rest' more : List Char}
    (digits : '|' ∉ number) (digits' : '|' ∉ number')
    (behind : '|' :: (number ++ '|' :: rest) = more ++ '|' :: (number' ++ '|' :: rest')) :
    (more = [] ∧ number = number' ∧ rest = rest') ∨
      Overlaps file number rest (file ++ more) number' rest' := by
  cases more with
  | nil =>
      have tails := List.tail_eq_of_cons_eq behind
      exact Or.inl ⟨rfl, (append_bar_inj digits digits').mp tails⟩
  | cons c more =>
      rcases List.cons_eq_cons.mp behind with ⟨rfl, tails⟩
      rcases (append_bar_eq_iff digits).mp tails with ⟨more, rfl, held⟩
      exact Or.inr ⟨more, rfl, held⟩

theorem parts_eq_iff {file number rest file' number' rest' : List Char} (digits : '|' ∉ number)
    (digits' : '|' ∉ number') :
    file ++ '|' :: (number ++ '|' :: rest) = file' ++ '|' :: (number' ++ '|' :: rest') ↔
      (file = file' ∧ number = number' ∧ rest = rest') ∨
        Overlaps file number rest file' number' rest' ∨
        Overlaps file' number' rest' file number rest := by
  constructor
  · intro same
    rcases List.append_eq_append_iff.mp same with ⟨more, rfl, behind⟩ | ⟨more, rfl, behind⟩
    · rcases overlaps_of_longer digits digits' behind with ⟨rfl, numbers, rests⟩ | overlaps
      · exact Or.inl ⟨(List.append_nil _).symm, numbers, rests⟩
      · exact Or.inr (Or.inl overlaps)
    · rcases overlaps_of_longer digits' digits behind with ⟨rfl, numbers, rests⟩ | overlaps
      · exact Or.inl ⟨List.append_nil _, numbers.symm, rests.symm⟩
      · exact Or.inr (Or.inr overlaps)
  · rintro (⟨rfl, rfl, rfl⟩ | overlaps | overlaps)
    · rfl
    · exact overlaps.append_eq
    · exact overlaps.append_eq.symm

/-! ## Names between commas -/

theorem splitOn_intercalate_comma {names : List (List Char)} (notEmpty : names ≠ []) :
    ([','].intercalate names).splitOn ',' = names.flatMap (·.splitOn ',') := by
  induction names with
  | nil => exact absurd rfl notEmpty
  | cons name names induction =>
      cases names with
      | nil => simp
      | cons next names =>
          rw [List.intercalate_cons_cons, List.append_assoc, List.singleton_append,
            List.splitOn_append_cons_self, induction (List.cons_ne_nil _ _)]
          rfl

/-- Names that are joined by commas have the same pieces if and only if they make the same text. -/
theorem intercalate_comma_eq_iff {names names' : List (List Char)} (notEmpty : names ≠ [])
    (notEmpty' : names' ≠ []) :
    [','].intercalate names = [','].intercalate names' ↔
      names.flatMap (·.splitOn ',') = names'.flatMap (·.splitOn ',') := by
  rw [← splitOn_intercalate_comma notEmpty, ← splitOn_intercalate_comma notEmpty']
  constructor
  · exact congrArg _
  · intro same
    have joined := congrArg [','].intercalate same
    rwa [List.intercalate_splitOn, List.intercalate_splitOn] at joined

theorem flatMap_splitOn_of_whole {names : List (List Char)} (whole : ∀ name ∈ names, ',' ∉ name) :
    names.flatMap (·.splitOn ',') = names := by
  induction names with
  | nil => rfl
  | cons name names induction =>
      rw [List.flatMap_cons, List.splitOn_eq_singleton (whole name (List.mem_cons_self ..)),
        induction fun other member => whole other (List.mem_cons_of_mem _ member)]
      rfl

/-! ## The text of an edit -/

namespace ClassEdit

/-- The text whose digest is the id. -/
def hashed (edit : ClassEdit) : String :=
  idText edit.key edit.memberNames

def fileChars (edit : ClassEdit) : List Char :=
  edit.key.file.text.toList

def startChars (edit : ClassEdit) : List Char :=
  Nat.toDigits 10 edit.key.start.toNat

def nameChars (edit : ClassEdit) : List (List Char) :=
  edit.memberNames.map String.toList

/-- What stands between the commas. -/
def namePieces (edit : ClassEdit) : List (List Char) :=
  edit.nameChars.flatMap (·.splitOn ',')

/-- The text of the first edit may be taken for that of the second, in whose file the start of the
first class stands and whatever of the names comes before the start of the second. -/
def ReadsAs (first second : ClassEdit) : Prop :=
  Overlaps first.fileChars first.startChars ([','].intercalate first.nameChars)
    second.fileChars second.startChars ([','].intercalate second.nameChars)

theorem toList_hashed (edit : ClassEdit) :
    edit.hashed.toList =
      edit.fileChars ++ '|' :: (edit.startChars ++ '|' :: [','].intercalate edit.nameChars) := by
  have start : (toString edit.key.start).toList = edit.startChars := Nat.toList_repr
  have file : (toString edit.key.file).toList = edit.fileChars := rfl
  have bar : (toString "|").toList = ['|'] := rfl
  simp [hashed, idText, String.toList_intercalate, start, file, bar, nameChars]

theorem bar_notMem_startChars (edit : ClassEdit) : '|' ∉ edit.startChars := by
  intro member
  cases Json.isDigit_of_mem_ofNatural member

theorem startChars_inj {first second : ClassEdit} :
    first.startChars = second.startChars ↔ first.key.start = second.key.start := by
  constructor
  · intro same
    have read := congrArg Json.natural? same
    rw [startChars, startChars, ← Json.ofNatural, ← Json.ofNatural, Json.natural?_ofNatural,
      Json.natural?_ofNatural, Option.some.injEq] at read
    exact UInt64.toNat_inj.mp read
  · intro same
    rw [startChars, startChars, same]

theorem key_eq_iff {first second : ClassEdit} :
    first.key = second.key ↔
      first.fileChars = second.fileChars ∧ first.startChars = second.startChars := by
  rw [startChars_inj, fileChars, fileChars, String.toList_inj]
  rcases first.key with ⟨⟨file⟩, start⟩
  rcases second.key with ⟨⟨file'⟩, start'⟩
  simp

theorem nameChars_inj {first second : ClassEdit} :
    first.nameChars = second.nameChars ↔ first.memberNames = second.memberNames :=
  List.map_inj_right fun _ _ => String.toList_inj.mp

theorem hashed_eq_iff {first second : ClassEdit} (notEmpty : first.memberNames ≠ [])
    (notEmpty' : second.memberNames ≠ []) :
    first.hashed = second.hashed ↔
      (first.key = second.key ∧ first.namePieces = second.namePieces) ∨
        first.ReadsAs second ∨ second.ReadsAs first := by
  have names : first.nameChars ≠ [] := mt List.map_eq_nil_iff.mp notEmpty
  have names' : second.nameChars ≠ [] := mt List.map_eq_nil_iff.mp notEmpty'
  rw [← String.toList_inj, toList_hashed, toList_hashed,
    parts_eq_iff first.bar_notMem_startChars second.bar_notMem_startChars,
    intercalate_comma_eq_iff names names', key_eq_iff, and_assoc]
  rfl

theorem ReadsAs.bar_mem {first second : ClassEdit} (reads : first.ReadsAs second) :
    '|' ∈ second.fileChars := by
  rcases reads with ⟨more, file, _⟩
  rw [file]
  exact List.mem_append_right _ (List.mem_cons_self ..)

end ClassEdit

/-! ## What a repair answers -/

/-- What every edit has that a repair makes. -/
structure ClassEdit.IsMade (edit : ClassEdit) : Prop where
  id_eq : edit.id = Digest.nameId namespaceBytes edit.hashed
  notEmpty : edit.memberNames ≠ []

theorem isMade_of_repairOne {model : TypeModel} {style : StubStyle} {target : ClassTarget}
    {path : Path} {edit : ClassEdit}
    (answer : repairOne model style target =
      .ok (some { files := [{ path, classes := [edit] }] })) :
    edit.IsMade := by
  rcases exists_of_repairOne answer with ⟨owed, _, ⟨member, held, supported⟩, rfl⟩
  refine ⟨rfl, fun nothing => ?_⟩
  have noStubs := List.map_eq_nil_iff.mp nothing
  rw [(style.partition_stubs_eq_nil_iff owed.members).mp noStubs member held] at supported
  cases supported

namespace FileRepair

theorem isMade_of_mem_classes {program : Program} {style : StubStyle} {file : Path}
    {diagnostics : List Diagnostic} {edit : ClassEdit}
    (held : edit ∈ (repairFile program style file diagnostics).classes) :
    edit.IsMade ∧ edit.key.file = file := by
  rw [(accounts_repairFile program style file diagnostics).classes] at held
  rcases List.mem_filterMap.mp held with ⟨target, first, repaired⟩
  have keyed := key_of_editOf? repaired
  rcases Option.map_eq_some_iff.mp repaired with ⟨sole, alone, rfl⟩
  have made := isMade_of_repairOne (Batch.soleEdit?_eq_some_iff.mp alone)
  exact ⟨⟨made.id_eq, made.notEmpty⟩, by rw [keyed, file_of_mem_firstTargets first]⟩

end FileRepair

/-- Edits of a batch name their files in normal form. -/
def Batch.IsSound (batch : Batch) : Prop :=
  ∀ edit ∈ batch.edits.classes, edit.IsMade ∧ edit.key.file.normalize = edit.key.file

theorem Batch.IsSound.addGroup {program : Program} {style : StubStyle} {batch : Batch}
    (sound : batch.IsSound) {group : Path × List Diagnostic}
    (normal : group.1.normalize = group.1) : (batch.addGroup program style group).IsSound := by
  have classes : (batch.addGroup program style group).edits.classes =
      batch.edits.classes ++ (repairFile program style group.1 group.2).classes := by
    simp only [Batch.addGroup, addFile, EditSet.classes, List.flatMap_append]
    congr 1
    split
    · next nothing => rw [List.isEmpty_iff.mp nothing, List.flatMap_nil]
    · exact List.append_nil _
  intro edit held
  rw [classes] at held
  rcases List.mem_append.mp held with before | added
  · exact sound edit before
  · rcases FileRepair.isMade_of_mem_classes added with ⟨made, file⟩
    exact ⟨made, by rw [file, normal]⟩

theorem repairAll_isSound (program : Program) (style : StubStyle) (diagnostics : List Diagnostic) :
    (repairAll program style diagnostics).IsSound := by
  have normal := (Batch.grouped_byFile diagnostics).normal
  have start : Batch.IsSound {} := fun _ held => absurd held List.not_mem_nil
  rw [repairAll]
  generalize (byFile diagnostics).entries = groups at normal
  generalize ({} : Batch) = batch at start
  induction groups generalizing batch with
  | nil => exact start
  | cons group groups induction =>
      exact induction (fun entry member => normal entry (List.mem_cons_of_mem _ member)) _
        (start.addGroup (normal group (List.mem_cons_self ..)))

theorem repairCancellable_isSound (program : Program) (style : StubStyle)
    (diagnostics : List Diagnostic) (raisedAfter : Option Nat) :
    (repairCancellable program style diagnostics raisedAfter).batch.IsSound := by
  have normal := (Batch.grouped_byFile diagnostics).normal
  have start : ({} : CancellableBatch).batch.IsSound := fun _ held => absurd held List.not_mem_nil
  rw [repairCancellable]
  generalize (byFile diagnostics).entries = groups at normal
  generalize ({} : CancellableBatch) = run at start
  induction groups generalizing run with
  | nil => exact start
  | cons group groups induction =>
      refine induction (fun entry member => normal entry (List.mem_cons_of_mem _ member)) _ ?_
      rw [CancellableBatch.addGroup]
      split
      · exact start
      · exact start.addGroup (normal group (List.mem_cons_self ..))

/-! ## What an id tells -/

namespace ClassEdit

inductive IsBatchRepair (edit : ClassEdit) : Prop
  | all {program : Program} {style : StubStyle} {diagnostics : List Diagnostic}
      (held : edit ∈ (repairAll program style diagnostics).edits.classes)
  | cancellable {program : Program} {style : StubStyle} {diagnostics : List Diagnostic}
      {raisedAfter : Option Nat}
      (held : edit ∈ (repairCancellable program style diagnostics raisedAfter).batch.edits.classes)

/-- An edit that some repair answers, of one class or of many. -/
inductive IsRepair (edit : ClassEdit) : Prop
  | alone {model : TypeModel} {style : StubStyle} {target : ClassTarget} {edits : EditSet}
      (answer : repairOne model style target = .ok (some edits)) (held : edit ∈ edits.classes)
  | batch (held : edit.IsBatchRepair)

variable {edit first second : ClassEdit}

theorem IsBatchRepair.isSound (held : edit.IsBatchRepair) :
    edit.IsMade ∧ edit.key.file.normalize = edit.key.file := by
  cases held with
  | all held => exact repairAll_isSound _ _ _ edit held
  | cancellable held => exact repairCancellable_isSound _ _ _ _ edit held

theorem IsRepair.isMade (repaired : edit.IsRepair) : edit.IsMade := by
  cases repaired with
  | batch held => exact held.isSound.1
  | @alone model style target edits answer held =>
      rcases repairOne_cases model style target [] with
        ⟨nothing, _⟩ | ⟨_, failed, _⟩ | ⟨sole, whole, _⟩
      · cases nothing.symm.trans answer
      · cases failed.symm.trans answer
      · cases whole.symm.trans answer
        have same : edit = sole := by simpa [EditSet.classes] using held
        rw [same]
        exact isMade_of_repairOne whole

/-- A class that owes a member for which a stub can be written has an edit. -/
theorem IsRepair.exists_of_heritage (snapshot : Snapshot) (file : Path) {decl : ClassDecl}
    {base : TypeRef} {chain : List ClassDecl} (single : decl.bases = [base])
    (heritage : Heritage snapshot base.name chain) {names : List String}
    (owed : (Heritage.owedNames chain decl).filter (Heritage.supports chain) = names)
    (notEmpty : names ≠ []) :
    ∃ edit : ClassEdit, edit.IsRepair ∧ edit.key = ⟨file, decl.span.start⟩ ∧
      edit.memberNames = names := by
  rcases exists_owed file single heritage with ⟨members, candidates, owedNames, supports⟩
  have stubNames := (names_edit owedNames supports {}).1.trans owed
  have supported : ∃ member ∈ members, member.isSupported = true := by
    apply by_contra
    intro none
    have noStubs := (StubStyle.partition_stubs_eq_nil_iff {} members).mpr (by simpa using none)
    rw [noStubs] at stubNames
    exact notEmpty stubNames.symm
  have answer := (repairClass_of_candidates {} [] candidates).trans
    (ClassTarget.outcome_eq_ok_some_iff.mpr ⟨supported, rfl⟩)
  refine ⟨_, .alone (congrArg (Except.map _) answer) (List.mem_singleton.mpr rfl), rfl, stubNames⟩

/-- What the ids of two edits tell. In general they are the same if the classes and the pieces of
the names are, or if the text of one edit reads as that of the other, and in no other case. Without
bars in the files and commas in the names they tell the classes and the names. In a batch a class is
known by its start and by its file, however the file was spelled. -/
structure IdsTell (first second : ClassEdit) : Prop where
  id_eq_iff : first.id = second.id ↔
    (first.key = second.key ∧ first.namePieces = second.namePieces) ∨
      first.ReadsAs second ∨ second.ReadsAs first
  id_eq_iff_of_plain : '|' ∉ first.fileChars → '|' ∉ second.fileChars →
    (∀ name ∈ first.nameChars ++ second.nameChars, ',' ∉ name) →
    (first.id = second.id ↔ first.key = second.key ∧ first.memberNames = second.memberNames)
  key_eq_iff : first.IsBatchRepair → second.IsBatchRepair →
    (first.key = second.key ↔
      first.key.file.sameFile second.key.file = true ∧ first.key.start = second.key.start)

theorem IsRepair.idsTell (repaired : first.IsRepair) (repaired' : second.IsRepair)
    (injective : Digest.nameId namespaceBytes first.hashed =
      Digest.nameId namespaceBytes second.hashed → first.hashed = second.hashed) :
    IdsTell first second := by
  have ids : first.id = second.id ↔
      (first.key = second.key ∧ first.namePieces = second.namePieces) ∨
        first.ReadsAs second ∨ second.ReadsAs first := by
    rw [repaired.isMade.id_eq, repaired'.isMade.id_eq,
      ← hashed_eq_iff repaired.isMade.notEmpty repaired'.isMade.notEmpty]
    exact ⟨injective, congrArg _⟩
  refine ⟨ids, fun noBar noBar' noComma => ?_, fun batch batch' => ?_⟩
  · have pieces : ∀ edit ∈ [first, second], edit.namePieces = edit.nameChars := by
      intro edit either
      refine flatMap_splitOn_of_whole fun name member => noComma name ?_
      rcases List.mem_pair.mp either with rfl | rfl
      · exact List.mem_append_left _ member
      · exact List.mem_append_right _ member
    rw [ids, pieces first (by simp), pieces second (by simp), nameChars_inj]
    constructor
    · rintro (same | reads | reads)
      · exact same
      · exact absurd reads.bar_mem noBar'
      · exact absurd reads.bar_mem noBar
    · exact Or.inl
  · have normal := batch.isSound.2
    have normal' := batch'.isSound.2
    rw [Path.sameFile_iff, normal, normal']
    rcases first.key with ⟨file, start⟩
    rcases second.key with ⟨file', start'⟩
    simp

end ClassEdit

/-! A form that extends a base whose members are all left open. The id tells two forms apart unless
members have commas in their names, or bars stand in a member and in the path of a file. A second
spelling of a path makes another id. -/

namespace Forms

def fields (members : List String) : ClassDecl :=
  { name := "Fields", isAbstract := true, span := ⟨200, 300⟩, nameSpan := ⟨215, 221⟩
    members := members.map fun name =>
      { name, shape := .property "string", isAbstract := true } }

def form (start : UInt64) : ClassDecl :=
  { name := "Form", span := ⟨start, 90⟩, nameSpan := ⟨start + 6, start + 10⟩
    openBrace := start + 26, bases := [⟨"Fields", []⟩] }

def snapshot (file : String) (start : UInt64) (members : List String) : Snapshot :=
  { files := [{ path := ⟨file⟩, classes := [form start, fields members] }] }

/-- The members are owed as they are listed, and a stub is written for each. -/
theorem exists_edit (file : String) (start : UInt64) (members : List String)
    (owed : (Heritage.owedNames [fields members] (form start)).filter
      (Heritage.supports [fields members]) = members) (notEmpty : members ≠ []) :
    ∃ edit : ClassEdit, edit.IsRepair ∧ edit.key = ⟨⟨file⟩, start⟩ ∧ edit.memberNames = members ∧
      edit.id = ClassEdit.idOf ⟨⟨file⟩, start⟩ members := by
  rcases ClassEdit.IsRepair.exists_of_heritage (snapshot file start members) ⟨file⟩ rfl
    (.root rfl rfl rfl) owed notEmpty with ⟨edit, repaired, keyed, named⟩
  refine ⟨edit, repaired, keyed, named, ?_⟩
  rw [repaired.isMade.id_eq, ClassEdit.hashed, keyed, named]
  rfl

theorem idsTell_swapped : ∃ first second : ClassEdit,
    (first.IsRepair ∧ second.IsRepair ∧
      (Digest.nameId ClassEdit.namespaceBytes first.hashed =
        Digest.nameId ClassEdit.namespaceBytes second.hashed → first.hashed = second.hashed)) ∧
    first.key = second.key ∧ first.memberNames = ["x", "y"] ∧ second.memberNames = ["y", "x"] ∧
    ClassEdit.IdsTell first second := by
  rcases exists_edit "a.ts" 0 ["x", "y"] (by decide +kernel) (by decide) with
    ⟨first, repaired, keyed, named, _⟩
  rcases exists_edit "a.ts" 0 ["y", "x"] (by decide +kernel) (by decide) with
    ⟨second, repaired', keyed', named', _⟩
  have distinct : Digest.nameId ClassEdit.namespaceBytes first.hashed ≠
      Digest.nameId ClassEdit.namespaceBytes second.hashed := by
    rw [ClassEdit.hashed, ClassEdit.hashed, keyed, keyed', named, named']
    decide +kernel
  have injective : Digest.nameId ClassEdit.namespaceBytes first.hashed =
      Digest.nameId ClassEdit.namespaceBytes second.hashed → first.hashed = second.hashed :=
    fun same => absurd same distinct
  exact ⟨first, second, ⟨repaired, repaired', injective⟩, keyed.trans keyed'.symm, named, named',
    repaired.idsTell repaired' injective⟩

theorem id_confuses :
    (∃ first second : ClassEdit, (first.IsRepair ∧ second.IsRepair) ∧ first.id = second.id ∧
      first.key = second.key ∧
      first.memberNames = ["a,b"] ∧ second.memberNames = ["a", "b"]) ∧
    (∃ first second : ClassEdit, (first.IsRepair ∧ second.IsRepair) ∧ first.id = second.id ∧
      first.key = ⟨⟨"a.ts"⟩, 10⟩ ∧ second.key = ⟨⟨"a.ts|10"⟩, 20⟩ ∧
      first.memberNames = ["20|x"] ∧ second.memberNames = ["x"]) ∧
    ∃ first second : ClassEdit, (first.IsRepair ∧ second.IsRepair) ∧ first.id ≠ second.id ∧
      first.key = ⟨⟨"src/a.ts"⟩, 0⟩ ∧ second.key = ⟨⟨"src//a.ts"⟩, 0⟩ ∧
      Path.sameComponents ⟨"src/a.ts"⟩ ⟨"src//a.ts"⟩ = true ∧
      first.memberNames = second.memberNames := by
  refine ⟨?commas, ?bars, ?spellings⟩
  case commas =>
    rcases exists_edit "a.ts" 0 ["a,b"] (by decide +kernel) (by decide) with
      ⟨first, repaired, keyed, named, id⟩
    rcases exists_edit "a.ts" 0 ["a", "b"] (by decide +kernel) (by decide) with
      ⟨second, repaired', keyed', named', id'⟩
    have text : ClassEdit.idText ⟨⟨"a.ts"⟩, 0⟩ ["a,b"] =
        ClassEdit.idText ⟨⟨"a.ts"⟩, 0⟩ ["a", "b"] := by decide +kernel
    refine ⟨first, second, ⟨repaired, repaired'⟩, ?_, keyed.trans keyed'.symm, named, named'⟩
    rw [id, id', ClassEdit.idOf, ClassEdit.idOf, text]
  case bars =>
    rcases exists_edit "a.ts" 10 ["20|x"] (by decide +kernel) (by decide) with
      ⟨first, repaired, keyed, named, id⟩
    rcases exists_edit "a.ts|10" 20 ["x"] (by decide +kernel) (by decide) with
      ⟨second, repaired', keyed', named', id'⟩
    have text : ClassEdit.idText ⟨⟨"a.ts"⟩, 10⟩ ["20|x"] =
        ClassEdit.idText ⟨⟨"a.ts|10"⟩, 20⟩ ["x"] := by decide +kernel
    refine ⟨first, second, ⟨repaired, repaired'⟩, ?_, keyed, keyed', named, named'⟩
    rw [id, id', ClassEdit.idOf, ClassEdit.idOf, text]
  case spellings =>
    rcases exists_edit "src/a.ts" 0 ["x"] (by decide +kernel) (by decide) with
      ⟨first, repaired, keyed, named, id⟩
    rcases exists_edit "src//a.ts" 0 ["x"] (by decide +kernel) (by decide) with
      ⟨second, repaired', keyed', named', id'⟩
    have distinct : ClassEdit.idOf ⟨⟨"src/a.ts"⟩, 0⟩ ["x"] ≠
        ClassEdit.idOf ⟨⟨"src//a.ts"⟩, 0⟩ ["x"] := by decide +kernel
    refine ⟨first, second, ⟨repaired, repaired'⟩, ?_, keyed, keyed', by decide +kernel,
      named.trans named'.symm⟩
    rwa [id, id']

end Forms

end MemberStubs
