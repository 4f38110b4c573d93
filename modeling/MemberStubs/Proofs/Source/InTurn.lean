import MemberStubs.Proofs.Source.FileEdit
import MemberStubs.Proofs.Source.Moving

/-! The classes of a file one after another, each put into the text that the one before left. What is
inserted on one line changes nothing about the others but where they begin, so all orders come to
the text that one pass makes of all classes together. -/

namespace MemberStubs

open SourceBuffer

/-- A class whose file has grown at an anchor. What stands behind that anchor moves along. -/
def ClassEdit.movedBehind (used : Anchor) (growth : Nat) (edited : ClassEdit) : ClassEdit :=
  if used.position < edited.anchor.position then
    { edited with anchor := ⟨edited.anchor.position + .ofNat growth⟩ }
  else edited

/-- Every class as the only one of its file. A text grows by the length of the block put into it. -/
def FileEdit.renderInTurn (edit : FileEdit) (layout : Layout) (contents : String) :
    List ClassEdit → Except Misfit String
  | [] => .ok contents
  | edited :: later =>
      match { edit with classes := [edited] }.render contents layout with
      | .error misfit => .error misfit
      | .ok next =>
          let growth := Text.byteLength next.toList - Text.byteLength contents.toList
          renderInTurn edit layout next (later.map (.movedBehind edited.anchor growth))
termination_by classes => classes.length

/-- The number of the line that an anchor is on. -/
def Anchor.line? (contents : String) (anchor : Anchor) : Option Nat :=
  (Text.splitAtByte? anchor.position.toNat contents.toList).map fun parts => parts.1.count '\n'

/-! ## One class and the others -/

theorem CutAt.line?_eq {contents : String} {anchor : Anchor} {before after : List Char}
    (cut : CutAt contents anchor before after) :
    anchor.line? contents = some (before.count '\n') := by
  rw [Anchor.line?, cut.splitAtByte?_eq]
  simp

/-- Two anchors of a text that do not stand on one line have a line feed between them. -/
theorem exists_between {front before after rest : List Char}
    (same : front ++ '\x7b' :: rest = before ++ '\x7b' :: after)
    (length : Text.byteLength front ≤ Text.byteLength before)
    (lines : front.count '\n' ≠ before.count '\n') :
    ∃ between, before = front ++ '\x7b' :: between ∧ rest = between ++ '\x7b' :: after ∧
      '\n' ∈ between := by
  rcases exists_eq_append_of_byteLength_le same length with ⟨between, rfl, split⟩
  cases between with
  | nil => simp at lines
  | cons c between =>
      rcases List.cons.inj split with ⟨rfl, rfl⟩
      refine ⟨between, rfl, rfl, List.count_pos_iff.mp ?_⟩
      simp only [List.count_append, List.count_cons] at lines
      simp at lines
      omega

/-- Where an anchor of another line is before and after a block goes in behind the first anchor. -/
inductive OnOtherLine (contents next : String) (first other : Anchor)
    (before after block : List Char) : Prop
  | above {front between : List Char} (ends : '\n' ∈ between)
      (split : before = front ++ '\x7b' :: between)
      (stays : ¬first.position < other.position)
      (cut : CutAt contents other front (between ++ '\x7b' :: after))
      (cut' : CutAt next other front (between ++ '\x7b' :: (block ++ after)))
  | below {between rest : List Char} (ends : '\n' ∈ between)
      (split : after = between ++ '\x7b' :: rest)
      (moves : first.position < other.position)
      (cut : CutAt contents other (before ++ '\x7b' :: between) rest)
      (cut' : CutAt next ⟨other.position + .ofNat (Text.byteLength block)⟩
        (before ++ '\x7b' :: (block ++ between)) rest)

section

variable {contents next : String} {first : Anchor} {before after block : List Char}

theorem CutAt.onOtherLine (cut : CutAt contents first before after)
    (left : next.toList = before ++ '\x7b' :: (block ++ after))
    (bound : Text.byteLength contents.toList + Text.byteLength block < UInt64.size)
    {other : Anchor} (follows : FollowsBrace contents other.position.toNat)
    (lines : other.line? contents ≠ first.line? contents) :
    OnOtherLine contents next first other before after block := by
  rcases exists_cutAt follows with ⟨front, rest, otherCut⟩
  rw [cut.line?_eq, otherCut.line?_eq, ne_eq, Option.some.injEq] at lines
  have same := cut.whole.trans otherCut.whole.symm
  have place := cut.place
  have otherPlace := otherCut.place
  rcases Nat.le_total (Text.byteLength front) (Text.byteLength before) with shorter | longer
  · rcases exists_between same.symm shorter lines with ⟨between, rfl, rfl, ends⟩
    refine .above ends rfl ?_ otherCut ⟨by rw [left]; simp, otherPlace⟩
    rw [UInt64.lt_iff_toNat_lt]
    omega
  · rcases exists_between same longer (Ne.symm lines) with ⟨between, rfl, rfl, ends⟩
    rw [← otherCut.whole] at bound
    simp only [Text.byteLength_append, byteLength_cons_brace] at otherPlace bound
    refine .below ends rfl ?_ otherCut ⟨by rw [left]; simp, ?_⟩
    · rw [UInt64.lt_iff_toNat_lt]
      omega
    · rw [toNat_add_ofNat (by omega)]
      simp only [Text.byteLength_append, byteLength_cons_brace]
      omega

/-- The other class asks for the same block in what the first class leaves. -/
theorem OnOtherLine.insertion?_movedBehind {edited : ClassEdit}
    (aside : OnOtherLine contents next first edited.anchor before after block) (layout : Layout) :
    ((edited.movedBehind first (Text.byteLength block)).request layout).insertion? next.toList =
      ((edited.request layout).insertion? contents.toList).map
        (.movedBehind first (Text.byteLength block)) := by
  cases aside with
  | above ends split stays cut cut' =>
      rw [ClassEdit.movedBehind, if_neg stays, cut.insertion?_eq rfl, cut'.insertion?_eq rfl,
        Option.map_some, Insertion.movedBehind, if_neg stays]
      simp only [Layout.placedBlock, Layout.isRestBlank_append ends]
  | @below between rest ends split moves cut cut' =>
      have begins : '\n' ∈ between ++ ['\x7b'] := List.mem_append_left _ ends
      have indent (front : List Char) :
          Layout.indentOf (front ++ between ++ ['\x7b']) =
            Layout.indentOf (between ++ ['\x7b']) := by
        rw [List.append_assoc, Layout.indentOf_append begins]
      rw [ClassEdit.movedBehind, if_pos moves, cut.insertion?_eq rfl, cut'.insertion?_eq rfl,
        Option.map_some, Insertion.movedBehind, if_pos moves, Insertion.shift]
      have old := indent (before ++ ['\x7b'])
      have new := indent (before ++ '\x7b' :: block)
      simp only [List.append_assoc, List.cons_append, List.nil_append] at old new
      simp only [Layout.placedBlock, ClassEdit.request, List.append_assoc, List.cons_append,
        old, new]
      rfl

/-- Lines below the first anchor move down by the line feeds of the block. -/
theorem OnOtherLine.line?_movedBehind {edited : ClassEdit}
    (aside : OnOtherLine contents next first edited.anchor before after block) :
    (edited.movedBehind first (Text.byteLength block)).anchor.line? next =
      (edited.anchor.line? contents).map fun line =>
        if before.count '\n' < line then line + block.count '\n' else line := by
  cases aside with
  | @above front between ends split stays cut cut' =>
      have notBelow : ¬before.count '\n' < front.count '\n' := by
        rw [split, List.count_append]
        omega
      rw [ClassEdit.movedBehind, if_neg stays, cut.line?_eq, cut'.line?_eq, Option.map_some,
        if_neg notBelow]
  | @below between rest ends split moves cut cut' =>
      have below : before.count '\n' < (before ++ '\x7b' :: between).count '\n' := by
        have := List.count_pos_iff.mpr ends
        simp only [List.count_append, List.count_cons]
        omega
      rw [ClassEdit.movedBehind, if_pos moves, cut.line?_eq, cut'.line?_eq, Option.map_some,
        if_pos below]
      simp only [List.count_append, List.count_cons]
      exact congrArg some (by omega)

end

/-! ## One class after another -/

/-- Anchors on lines of their own fit if every class has its insertion. -/
theorem AnchorsFit.of_perm {layout : Layout} {contents : String} {classes : List ClassEdit}
    {insertions : List Insertion}
    (asked : (insertions.map some).Perm (classes.map fun edited =>
      (edited.request layout).insertion? contents.toList))
    (lines : (classes.map (·.anchor.line? contents)).Nodup) : AnchorsFit contents classes := by
  constructor
  · intro edited member
    rcases List.mem_map.mp (asked.mem_iff.mpr (List.mem_map_of_mem member)) with
      ⟨insertion, _, found⟩
    exact isSome_insertion?_iff.mp (Option.isSome_of_eq_some found.symm)
  · refine List.Nodup.of_map (Anchor.line? contents) ?_
    rw [List.map_map]
    exact lines

namespace FileEdit

variable {edit : FileEdit} {layout : Layout} {contents : String}

/-- The classes that are left when the first one is in its text. -/
structure Remains (edit : FileEdit) (layout : Layout) (next text : String)
    (classes : List ClassEdit) : Prop where
  fit : AnchorsFit next classes
  lines : (classes.map (·.anchor.line? next)).Nodup
  rendered : { edit with classes }.render next layout = .ok text

theorem render_singleton {edited : ClassEdit} {insertion : Insertion} {before after : List Char}
    (cut : CutAt contents edited.anchor before after)
    (asked : (edited.request layout).insertion? contents.toList = some insertion) :
    { edit with classes := [edited] }.render contents layout =
      .ok (String.ofList (before ++ '\x7b' :: (insertion.block ++ after))) := by
  have follows : FollowsBrace contents edited.anchor.position.toNat :=
    (@isSome_insertion?_iff contents (edited.request layout)).mp (by rw [asked]; rfl)
  have fit : AnchorsFit contents [edited] :=
    ⟨fun other member => List.mem_singleton.mp member ▸ follows, List.nodup_singleton _⟩
  rw [render_eq_of_perm _ layout fit (List.pairwise_singleton _ insertion)
    (by rw [List.map_singleton, List.map_singleton, asked]), ← cut.whole, renderFrom_cons]
  · rfl
  · rw [position_of_insertion? asked, Nat.zero_add]
    exact cut.place

section

variable {next : String} {first : Anchor} {before after block : List Char}
  {classes : List ClassEdit}
  (aside : ∀ edited ∈ classes, OnOtherLine contents next first edited.anchor before after block)

include aside

theorem perm_movedBehind {insertions : List Insertion}
    (asked : (insertions.map some).Perm (classes.map fun edited =>
      (edited.request layout).insertion? contents.toList)) :
    ((insertions.map (Insertion.movedBehind first (Text.byteLength block))).map some).Perm
      ((classes.map (ClassEdit.movedBehind first (Text.byteLength block))).map fun edited =>
        (edited.request layout).insertion? next.toList) := by
  have moved := asked.map (Option.map (Insertion.movedBehind first (Text.byteLength block)))
  rw [List.map_map, List.map_map] at moved ⊢
  refine moved.trans (.of_eq ?_)
  exact List.map_congr_left fun edited member =>
    ((aside edited member).insertion?_movedBehind layout).symm

/-- Lines that are apart stay apart. -/
theorem nodup_lines_movedBehind
    (lines : (classes.map (·.anchor.line? contents)).Nodup) :
    ((classes.map (ClassEdit.movedBehind first (Text.byteLength block))).map
      (·.anchor.line? next)).Nodup := by
  have injective : Function.Injective fun line : Nat =>
      if before.count '\n' < line then line + block.count '\n' else line := by
    intro line line' same
    simp only at same
    split at same <;> split at same <;> omega
  have moved := List.Nodup.map (Option.map_injective injective) lines
  rw [List.map_map] at moved ⊢
  refine (congrArg List.Nodup ?_).mpr moved
  exact List.map_congr_left fun edited member => (aside edited member).line?_movedBehind

theorem remains_of_aside {insertions : List Insertion}
    (asked : (insertions.map some).Perm (classes.map fun edited =>
      (edited.request layout).insertion? contents.toList))
    (increasing : (insertions.map (Insertion.movedBehind first (Text.byteLength block))).Pairwise
      (·.position < ·.position))
    (lines : (classes.map (·.anchor.line? contents)).Nodup) :
    edit.Remains layout next
      (String.ofList (renderFrom 0 next.toList
        (insertions.map (Insertion.movedBehind first (Text.byteLength block)))))
      (classes.map (ClassEdit.movedBehind first (Text.byteLength block))) := by
  have nextAsked := perm_movedBehind aside asked
  have nextLines := nodup_lines_movedBehind aside lines
  have nextFit := AnchorsFit.of_perm nextAsked nextLines
  exact ⟨nextFit, nextLines, render_eq_of_perm _ layout nextFit increasing nextAsked⟩

end

theorem render_cons {edited : ClassEdit} {later : List ClassEdit} {text : String}
    (rendered : { edit with classes := edited :: later }.render contents layout = .ok text)
    (lines : ((edited :: later).map (·.anchor.line? contents)).Nodup)
    (bound : Text.byteLength text.toList < UInt64.size) :
    ∃ next, { edit with classes := [edited] }.render contents layout = .ok next ∧
      edit.Remains layout next text (later.map (.movedBehind edited.anchor
        (Text.byteLength next.toList - Text.byteLength contents.toList))) := by
  have fit := (render_eq_ok_iff.mp rendered).1
  rcases exists_insertions fit layout with ⟨insertions, increasing, fits, asked, whole⟩
  rw [rendered, Except.ok.injEq] at whole
  rw [List.map_cons] at asked
  rcases List.mem_map.mp (asked.mem_iff.mpr (List.mem_cons_self ..)) with
    ⟨insertion, member, first⟩
  rcases List.append_of_mem member with ⟨earlier, behind, rfl⟩
  rw [whole, String.toList_ofList] at bound
  rcases fits.exists_movedBehind increasing bound with
    ⟨before, after, others, split, place, grown, rfl, othersIncreasing, same⟩
  have position := position_of_insertion? first.symm
  have here : (⟨insertion.position⟩ : Anchor) = edited.anchor := congrArg Anchor.mk position
  rw [here] at othersIncreasing same
  have cut : CutAt contents edited.anchor before after :=
    ⟨split, place.trans (congrArg UInt64.toNat position)⟩
  let next := String.ofList (before ++ '\x7b' :: (insertion.block ++ after))
  have left : next.toList = before ++ '\x7b' :: (insertion.block ++ after) := by
    rw [String.toList_ofList]
  have growth : Text.byteLength next.toList - Text.byteLength contents.toList =
      Text.byteLength insertion.block := by
    rw [left, ← split]
    simp only [Text.byteLength_append, Text.byteLength_cons]
    omega
  refine ⟨next, render_singleton cut first.symm, ?_⟩
  rw [growth]
  rcases List.nodup_cons.mp lines with ⟨alone, laterLines⟩
  have aside : ∀ other ∈ later,
      OnOtherLine contents next edited.anchor other.anchor before after insertion.block :=
    fun other member => cut.onOtherLine left grown
      (fit.followBraces other (List.mem_cons_of_mem _ member))
      fun line => alone (List.mem_map.mpr ⟨other, member, line⟩)
  have others : ((earlier ++ behind).map some).Perm
      (later.map fun other => (other.request layout).insertion? contents.toList) := by
    rw [List.map_append, List.map_cons] at asked
    rw [List.map_append, ← List.perm_cons (some insertion)]
    exact List.perm_middle.symm.trans (first ▸ asked)
  rw [whole, ← same, ← left]
  exact remains_of_aside aside others othersIncreasing laterLines

theorem renderInTurn_eq {classes : List ClassEdit} {text : String}
    (rendered : { edit with classes }.render contents layout = .ok text)
    (lines : (classes.map (·.anchor.line? contents)).Nodup)
    (bound : Text.byteLength text.toList < UInt64.size) :
    edit.renderInTurn layout contents classes = .ok text := by
  -- The classes that are left have moved, so they are no tail of the classes before.
  induction length : classes.length generalizing contents classes with
  | zero =>
      rw [List.length_eq_zero_iff.mp length] at rendered ⊢
      rw [renderInTurn, ← rendered]
      exact congrArg Except.ok String.ofList_toList.symm
  | succ length induction =>
      rcases List.exists_cons_of_length_eq_add_one length with ⟨edited, later, rfl⟩
      rcases render_cons rendered lines bound with ⟨next, first, remains⟩
      rw [renderInTurn, first]
      exact induction remains.rendered remains.lines (by simpa using length)

/-! ## All classes together -/

/-- What it means to put the blocks of all classes into a text at once. Anchors that move along are
offsets in machine words; every text that a machine holds is short enough for them. -/
structure RendersTogether (edit : FileEdit) (layout : Layout) (contents : String) : Prop where
  renders_iff : (∃ text, edit.render contents layout = .ok text) ↔
    AnchorsFit contents edit.classes
  misfits : ¬AnchorsFit contents edit.classes →
    ∃ edited ∈ edit.classes, ∃ fault,
      edit.render contents layout = .error ⟨edit.path, edited.displayName, fault⟩
  inTurn : ∀ text, edit.render contents layout = .ok text →
    (edit.classes.map (·.anchor.line? contents)).Nodup →
    Text.byteLength text.toList < UInt64.size →
    ∀ order, order.Perm edit.classes → edit.renderInTurn layout contents order = .ok text

/-- The classes of a file are rendered together or not at all. With one class on a line it makes no
difference that they are rendered together. -/
theorem render_together (edit : FileEdit) (layout : Layout) (contents : String) :
    edit.RendersTogether layout contents := by
  constructor
  · constructor
    · rintro ⟨text, rendered⟩
      exact (render_eq_ok_iff.mp rendered).1
    · exact fun fit => ⟨_, render_eq_ok_iff.mpr ⟨fit, rfl⟩⟩
  · exact exists_misfit
  · intro text rendered lines bound order same
    exact renderInTurn_eq (render_of_perm rendered same) ((same.map _).nodup_iff.mpr lines) bound

/-- The last class of two comes first. -/
example :
    let edited (position : UInt64) (text : String) : ClassEdit :=
      { id := "", key := default, name := none, anchor := ⟨position⟩,
        stubs := [⟨"m", .property, text⟩] }
    renderInTurn { path := ⟨"a.ts"⟩, classes := [] } {} "class A \x7b\n\x7d\nclass B \x7b\x7d"
        [edited 21 "b;", edited 9 "a;"] =
      .ok "class A \x7b\n    a;\n\x7d\nclass B \x7b\n    b;\n\x7d" := by
  cbv

end FileEdit

end MemberStubs
