import MemberStubs.Proofs.Source.FileEdit

/-! A rendered file with the origin of each of its characters. The classes of a file are walked from
the first anchor to the last; what is seen when origins are left out is the text that the file is
rendered to. -/

namespace MemberStubs

open SourceBuffer

/-- What a character of a rendered file was before: part of the source, part of a line of a stub, or
neither, when it only lays out lines. -/
inductive Origin where
  | source
  | layout
  | stub
  deriving DecidableEq, Repr

abbrev Trace := List (Char × Origin)

def Origin.mark (origin : Origin) (chars : List Char) : Trace :=
  chars.map fun c => (c, origin)

namespace Trace

def text (trace : Trace) : List Char :=
  trace.map Prod.fst

def textFrom (origin : Origin) (trace : Trace) : List Char :=
  (trace.filter fun c => c.2 = origin).map Prod.fst

end Trace

/-! ## Blocks with origins -/

namespace Layout

/-- What a line of a stub is laid out to, behind the newline that its own line begins with. -/
def ownLine (layout : Layout) (indent line : List Char) : Trace :=
  if line.isEmpty then []
  else Origin.layout.mark (indent ++ layout.indentUnit.toList) ++ Origin.stub.mark line

def markedBlock (layout : Layout) (before after text : List Char) : Trace :=
  let indent := indentOf before
  (Text.lines text).flatMap
      (fun line => Origin.layout.mark layout.newline.toList ++ layout.ownLine indent line) ++
    if isRestBlank after then [] else Origin.layout.mark (layout.newline.toList ++ indent)

/-- The rest of a source with the blocks of classes whose anchors are in it, in their order. The
source begins with `front`. -/
def weave (layout : Layout) (front rest : List Char) : List ClassEdit → Trace
  | [] => Origin.source.mark rest
  | edited :: later =>
      match Text.splitAtByte? (edited.anchor.position.toNat - Text.byteLength front) rest with
      | none => Origin.source.mark rest
      | some (before, after) =>
          Origin.source.mark before ++
            (layout.markedBlock (front ++ before) after edited.block.toList ++
              layout.weave (front ++ before) after later)

end Layout

namespace FileEdit

/-- The classes of a file from the first anchor to the last. -/
def inOrder (edit : FileEdit) : List ClassEdit :=
  edit.classes.mergeSort fun first second => first.anchor.position ≤ second.anchor.position

def trace (edit : FileEdit) (layout : Layout) (contents : String) : Trace :=
  layout.weave [] contents.toList edit.inOrder

end FileEdit

/-! ## Marks -/

section

variable {origin other : Origin}

@[simp] theorem Origin.mark_append (origin : Origin) (first second : List Char) :
    origin.mark (first ++ second) = origin.mark first ++ origin.mark second :=
  List.map_append

theorem Origin.mem_mark {c : Char × Origin} {chars : List Char} :
    c ∈ origin.mark chars ↔ c.1 ∈ chars ∧ c.2 = origin := by
  simp only [mark, List.mem_map]
  constructor
  · rintro ⟨c, member, rfl⟩
    exact ⟨member, rfl⟩
  · rintro ⟨member, rfl⟩
    exact ⟨c.1, member, rfl⟩

theorem Origin.ne_of_mem_mark {c : Char × Origin} {chars : List Char}
    (different : origin ≠ other) (member : c ∈ origin.mark chars) : c.2 ≠ other :=
  (mem_mark.mp member).2 ▸ different

namespace Trace

@[simp] theorem text_nil : text [] = [] := rfl

@[simp] theorem text_append (first second : Trace) :
    (first ++ second).text = first.text ++ second.text :=
  List.map_append

@[simp] theorem text_mark (origin : Origin) (chars : List Char) :
    (origin.mark chars).text = chars := by
  simp [text, Origin.mark, Function.comp_def]

@[simp] theorem textFrom_nil (origin : Origin) : textFrom origin [] = [] := rfl

@[simp] theorem textFrom_append (origin : Origin) (first second : Trace) :
    (first ++ second).textFrom origin = first.textFrom origin ++ second.textFrom origin := by
  simp [textFrom]

@[simp] theorem textFrom_mark (origin : Origin) (chars : List Char) :
    (origin.mark chars).textFrom origin = chars := by
  rw [textFrom, List.filter_eq_self.mpr fun c member => by
    simpa using (Origin.mem_mark.mp member).2]
  exact text_mark origin chars

@[simp] theorem textFrom_mark_of_ne (different : other ≠ origin) (chars : List Char) :
    (other.mark chars).textFrom origin = [] := by
  rw [textFrom, List.filter_eq_nil_iff.mpr fun c member => by
    simpa using Origin.ne_of_mem_mark different member]
  rfl

theorem textFrom_flatMap {α : Type} (items : List α) (trace : α → Trace) (origin : Origin) :
    textFrom origin (items.flatMap trace) =
      items.flatMap fun item => (trace item).textFrom origin := by
  simp [textFrom, List.filter_flatMap, List.map_flatMap]

end Trace

end

/-! ## Anchors along a source -/

/-- The anchors of classes are in the rest of a source, each one in what the one before it leaves.
The source begins with `front`. -/
inductive Anchored : List Char → List Char → List ClassEdit → Prop
  | nil {front rest : List Char} : Anchored front rest []
  | cons {front before after : List Char} {edited : ClassEdit} {later : List ClassEdit}
      (place : Text.byteLength (front ++ before) + 1 = edited.anchor.position.toNat)
      (anchored : Anchored (front ++ before ++ ['\x7b']) after later) :
      Anchored front (before ++ '\x7b' :: after) (edited :: later)

theorem anchored_of_fits {classes : List ClassEdit} {front rest : List Char}
    (fits : Fits (Text.byteLength front) rest
      (classes.map fun edited => ⟨edited.anchor.position, []⟩)) :
    Anchored front rest classes := by
  induction classes generalizing front rest with
  | nil => exact .nil
  | cons edited later induction =>
      cases fits with
      | cons place fits =>
          have front := byteLength_front rfl place
          rw [← Text.byteLength_append] at place
          exact .cons place (induction (front.symm ▸ fits))

namespace FileEdit

variable {edit : FileEdit} {contents : String}

theorem perm_inOrder (edit : FileEdit) : edit.inOrder.Perm edit.classes :=
  List.mergeSort_perm ..

theorem increasing_inOrder (fit : AnchorsFit contents edit.classes) :
    edit.inOrder.Pairwise (·.anchor.position < ·.anchor.position) := by
  have sorted : edit.inOrder.Pairwise (·.anchor.position ≤ ·.anchor.position) := by
    refine (List.pairwise_mergeSort ?_ ?_ edit.classes).imp of_decide_eq_true
    · intro first second third before before'
      exact decide_eq_true
        (UInt64.le_trans (of_decide_eq_true before) (of_decide_eq_true before'))
    · intro first second
      simpa using UInt64.le_total first.anchor.position second.anchor.position
  have apart : edit.inOrder.Pairwise (·.anchor ≠ ·.anchor) :=
    List.pairwise_map.mp (fit.perm (perm_inOrder edit)).nodup
  refine (sorted.and apart).imp fun before => ?_
  exact UInt64.lt_of_le_of_ne before.1 fun same => before.2 (congrArg Anchor.mk same)

theorem anchored_inOrder (fit : AnchorsFit contents edit.classes) :
    Anchored [] contents.toList edit.inOrder := by
  apply anchored_of_fits
  have follows := (fit.perm (perm_inOrder edit)).followBraces
  apply fits_of_increasing (List.nil_append _)
  · exact List.pairwise_map.mpr (increasing_inOrder fit)
  · intro insertion held
    rcases List.mem_map.mp held with ⟨edited, member, rfl⟩
    exact (follows edited member).1
  · intro insertion held
    rcases List.mem_map.mp held with ⟨edited, member, rfl⟩
    rcases exists_cutAt (follows edited member) with ⟨before, after, cut⟩
    exact isSome_splitBehindBrace?_iff.mpr ⟨before, after, cut.whole, cut.place⟩

end FileEdit

/-! ## Origins left out -/

namespace Layout

variable {layout : Layout}

theorem text_markedBlock (before after text : List Char) :
    (layout.markedBlock before after text).text = layout.placedBlock before after text := by
  have line (indent line : List Char) :
      (Origin.layout.mark layout.newline.toList ++ layout.ownLine indent line).text =
        layout.placedLine indent line := by
    rw [placedLine, ownLine]
    split <;> simp
  rw [markedBlock, placedBlock, Trace.text_append, Trace.text, List.map_flatMap]
  refine congr (congrArg _ ?_) ?_
  · exact congrArg (List.flatMap · (Text.lines text)) (funext (line _))
  · split <;> simp

theorem textFrom_source_ownLine (indent line : List Char) :
    (layout.ownLine indent line).textFrom .source = [] := by
  rw [ownLine]
  split <;> simp

theorem textFrom_stub_ownLine (indent line : List Char) :
    (layout.ownLine indent line).textFrom .stub = line := by
  rw [ownLine]
  split
  · next empty => exact (List.isEmpty_iff.mp empty).symm
  · simp

theorem textFrom_source_markedBlock (before after text : List Char) :
    (layout.markedBlock before after text).textFrom .source = [] := by
  rw [markedBlock, Trace.textFrom_append, Trace.textFrom_flatMap]
  split <;> simp [textFrom_source_ownLine]

theorem textFrom_stub_markedBlock (before after text : List Char) :
    (layout.markedBlock before after text).textFrom .stub = (Text.lines text).flatten := by
  rw [markedBlock, Trace.textFrom_append, Trace.textFrom_flatMap]
  split <;> simp [textFrom_stub_ownLine]

theorem weave_cons {front before after : List Char} {edited : ClassEdit} {later : List ClassEdit}
    (place : Text.byteLength (front ++ before) + 1 = edited.anchor.position.toNat) :
    layout.weave front (before ++ '\x7b' :: after) (edited :: later) =
      Origin.source.mark (before ++ ['\x7b']) ++
        (layout.markedBlock (front ++ before ++ ['\x7b']) after edited.block.toList ++
          layout.weave (front ++ before ++ ['\x7b']) after later) := by
  have split : Text.splitAtByte? (edited.anchor.position.toNat - Text.byteLength front)
      ((before ++ ['\x7b']) ++ after) = some (before ++ ['\x7b'], after) := by
    rw [Text.byteLength_append] at place
    exact splitAtByte?_behind (by rw [byteLength_brace]; omega) after
  rw [List.append_assoc, List.singleton_append] at split
  rw [weave, split]
  simp

end Layout

namespace Anchored

variable {front rest : List Char} {classes : List ClassEdit}

theorem textFrom_source_weave (anchored : Anchored front rest classes) (layout : Layout) :
    (layout.weave front rest classes).textFrom .source = rest := by
  induction anchored with
  | nil => exact Trace.textFrom_mark ..
  | cons place _ induction =>
      rw [Layout.weave_cons place, Trace.textFrom_append, Trace.textFrom_append, induction,
        Layout.textFrom_source_markedBlock, Trace.textFrom_mark]
      simp

theorem textFrom_stub_weave (anchored : Anchored front rest classes) (layout : Layout) :
    (layout.weave front rest classes).textFrom .stub =
      classes.flatMap fun edited => (Text.lines edited.block.toList).flatten := by
  induction anchored with
  | nil => exact Trace.textFrom_mark_of_ne (by decide) _
  | cons place _ induction =>
      rw [Layout.weave_cons place, Trace.textFrom_append, Trace.textFrom_append, induction,
        Layout.textFrom_stub_markedBlock, Trace.textFrom_mark_of_ne (by decide),
        List.flatMap_cons]
      rfl

/-- One of the classes cuts a source in two behind its brace. Before the cut stand the blocks of the
earlier classes, behind it its own and those of the later ones. -/
theorem exists_weave {earlier later : List ClassEdit} {edited : ClassEdit}
    (anchored : Anchored front rest (earlier ++ edited :: later)) (layout : Layout) :
    ∃ head before after, before ++ '\x7b' :: after = rest ∧
      Text.byteLength (front ++ before) + 1 = edited.anchor.position.toNat ∧
      Anchored (front ++ before ++ ['\x7b']) after later ∧
      head.textFrom .source = before ∧
      layout.weave front rest (earlier ++ edited :: later) = head ++ ('\x7b', .source) ::
        (layout.markedBlock (front ++ before ++ ['\x7b']) after edited.block.toList ++
          layout.weave (front ++ before ++ ['\x7b']) after later) := by
  induction earlier generalizing front rest with
  | nil =>
      cases anchored with
      | cons place anchored =>
          refine ⟨_, _, _, rfl, place, anchored, Trace.textFrom_mark .., ?_⟩
          rw [List.nil_append, Layout.weave_cons place, Origin.mark_append, List.append_assoc]
          rfl
  | cons first earlier induction =>
      cases anchored with
      | @cons _ before after _ _ place anchored =>
          rcases induction anchored with ⟨head, between, last, rfl, place', behind, source, woven⟩
          refine ⟨Origin.source.mark (before ++ ['\x7b']) ++
            (layout.markedBlock (front ++ before ++ ['\x7b']) (between ++ '\x7b' :: last)
              first.block.toList ++ head),
            before ++ '\x7b' :: between, last, by simp, ?_, ?_, ?_, ?_⟩
          · rw [← place']
            simp
          · simpa using behind
          · rw [Trace.textFrom_append, Trace.textFrom_append, source,
              Layout.textFrom_source_markedBlock, Trace.textFrom_mark]
            simp
          · rw [List.cons_append, Layout.weave_cons place, woven]
            simp

end Anchored

/-- The insertions of classes along a source, and the text that they make. -/
theorem Anchored.exists_insertions {contents : String} {front rest : List Char}
    {classes : List ClassEdit} (anchored : Anchored front rest classes) (layout : Layout)
    (whole : front ++ rest = contents.toList) :
    ∃ insertions : List Insertion,
      insertions.map some = classes.map (fun edited =>
        (edited.request layout).insertion? contents.toList) ∧
      insertions.map Insertion.position = classes.map (·.anchor.position) ∧
      renderFrom (Text.byteLength front) rest insertions =
        (layout.weave front rest classes).text := by
  induction anchored with
  | nil => exact ⟨[], rfl, rfl, (Trace.text_mark ..).symm⟩
  | @cons front before after edited later place _ induction =>
      have cut : CutAt contents edited.anchor (front ++ before) after :=
        ⟨by rw [← whole, List.append_assoc], place⟩
      rcases induction (by simpa using whole) with ⟨insertions, asked, positions, render⟩
      have place' : Text.byteLength front + Text.byteLength before + 1 =
          edited.anchor.position.toNat := by
        rw [← place, Text.byteLength_append]
      have length := byteLength_front rfl place'
      refine ⟨⟨edited.anchor.position, layout.placedBlock (front ++ before ++ ['\x7b']) after
        edited.block.toList⟩ :: insertions, ?_, ?_, ?_⟩
      · rw [List.map_cons, List.map_cons, asked, cut.insertion?_eq rfl]
        rfl
      · rw [List.map_cons, List.map_cons, positions]
      · rw [length] at render
        rw [renderFrom_cons place', render, Layout.weave_cons place]
        simp [Layout.text_markedBlock]

/-- A trace shows what its file is rendered to. -/
theorem FileEdit.text_trace {edit : FileEdit} {layout : Layout} {contents text : String}
    (rendered : edit.render contents layout = .ok text) :
    (edit.trace layout contents).text = text.toList := by
  have fit := (render_eq_ok_iff.mp rendered).1
  have same := perm_inOrder edit
  rcases (anchored_inOrder fit).exists_insertions layout (List.nil_append _) with
    ⟨insertions, asked, positions, render⟩
  have increasing : insertions.Pairwise (·.position < ·.position) := by
    rw [← List.pairwise_map, positions, List.pairwise_map]
    exact increasing_inOrder fit
  have ordered := render_eq_of_perm { edit with classes := edit.inOrder } layout
    (fit.perm same) increasing (.of_eq asked)
  rw [render_of_perm rendered same, Except.ok.injEq] at ordered
  rw [ordered, String.toList_ofList]
  exact render.symm

end MemberStubs
