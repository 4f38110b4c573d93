import Mathlib.Data.List.TakeWhile
import MemberStubs.Proofs.Source.Trace
import MemberStubs.Proofs.Text.Lines

/-! Lines of stubs and lines of the source stay apart. Every line of a block has a line of its own
in the rendered file, and what followed a brace on its line starts a fresh one. -/

namespace MemberStubs

open SourceBuffer

/-- The lines of a rendered file, with their line feeds. Behind the last line feed is one more line,
which may be empty. -/
def linesOf : Trace → List Trace
  | [] => [[]]
  | c :: rest =>
      if c.1 = '\n' then [c] :: linesOf rest else (linesOf rest).modifyHead (c :: ·)

/-- Layouts that only begin lines and indent them. -/
structure Layout.Plain (layout : Layout) : Prop where
  newline : layout.newline = "\n" ∨ layout.newline = "\r\n"
  indentUnit : ∀ c ∈ layout.indentUnit.toList, c = ' ' ∨ c = '\t'

/-- What may stand on a line behind a line of a stub. -/
def EndsLine (layout : Layout) (ending : Trace) : Prop :=
  ending = Origin.layout.mark layout.newline.toList ∨
    ∃ blanks, (∀ c ∈ blanks, Text.isBlank c = true) ∧ ending = Origin.source.mark blanks

/-- A line of a rendered file that has a line of a stub on it. -/
def PlacedOn (layout : Layout) (indent line : List Char) (placed : Trace) : Prop :=
  ∃ ending, EndsLine layout ending ∧ placed = layout.ownLine indent line ++ ending

/-- A line with stub text has nothing but blanks from the source. -/
def Unmixed (line : Trace) : Prop :=
  ∀ c ∈ line, c.2 = .stub → ∀ d ∈ line, d.2 = .source → Text.isBlank d.1 = true

/-- The line of a brace: `indent` is all the spaces and tabs that it begins with. -/
structure BraceLine (contents : String) (anchor : Anchor) (upper indent inked after : List Char) :
    Prop where
  whole : upper ++ indent ++ inked ++ '\x7b' :: after = contents.toList
  place : Text.byteLength (upper ++ indent ++ inked) + 1 = anchor.position.toNat
  begins : upper = [] ∨ upper.getLast? = some '\n'
  indents : ∀ c ∈ indent, c = ' ' ∨ c = '\t'
  indented : ∀ c ∈ (inked ++ ['\x7b']).head?, c ≠ ' ' ∧ c ≠ '\t'
  oneLine : '\n' ∉ inked

/-- The lines of a rendered file around the block of a class. The line of the brace ends right
behind it. What follows the brace there, if that is more than blanks, follows the indent on the
first line below the block; only blocks of later classes are in it. -/
structure ClassLines (layout : Layout) (edited : ClassEdit) (later : List ClassEdit)
    (before indent after : List Char) (lineEnd : Trace) (stretch below : List Trace) : Prop where
  lineEnds : EndsLine layout lineEnd
  placed : List.Forall₂ (PlacedOn layout indent) (Text.lines edited.block.toList) stretch
  fresh : (∃ c ∈ after.takeWhile (· ≠ '\n'), Text.isBlank c = false) →
    below.flatten =
      Origin.layout.mark indent ++ layout.weave (before ++ ['\x7b']) after later

/-! ## Cutting into lines -/

theorem exists_linesOf (trace : Trace) : ∃ first lower, linesOf trace = first :: lower := by
  induction trace with
  | nil => exact ⟨[], [], rfl⟩
  | cons c rest induction =>
      rcases induction with ⟨first, lower, split⟩
      rw [linesOf, split]
      split
      · exact ⟨_, _, rfl⟩
      · exact ⟨_, _, rfl⟩

theorem flatten_linesOf (trace : Trace) : (linesOf trace).flatten = trace := by
  induction trace with
  | nil => rfl
  | cons c rest induction =>
      rcases exists_linesOf rest with ⟨first, lower, split⟩
      rw [split] at induction
      rw [linesOf, split]
      split
      · simpa using induction
      · simpa using induction

/-- Text in front goes on with the first line of what is behind it. -/
theorem exists_linesOf_append (front : Trace) :
    ∃ above openLine, above.flatten ++ openLine = front ∧
      ∀ {behind first lower}, linesOf behind = first :: lower →
        linesOf (front ++ behind) = above ++ (openLine ++ first) :: lower := by
  induction front with
  | nil => exact ⟨[], [], rfl, fun split => split⟩
  | cons c front induction =>
      rcases induction with ⟨above, openLine, whole, lines⟩
      by_cases lineFeed : c.1 = '\n'
      · refine ⟨[c] :: above, openLine, by rw [← whole]; rfl, fun split => ?_⟩
        rw [List.cons_append, linesOf, if_pos lineFeed, lines split]
        rfl
      · cases above with
        | nil =>
            refine ⟨[], c :: openLine, by rw [← whole]; rfl, fun split => ?_⟩
            rw [List.cons_append, linesOf, if_neg lineFeed, lines split]
            rfl
        | cons line above =>
            refine ⟨(c :: line) :: above, openLine, by rw [← whole]; rfl, fun split => ?_⟩
            rw [List.cons_append, linesOf, if_neg lineFeed, lines split]
            rfl

theorem linesOf_append_of_notMem {front behind first : Trace} {lower : List Trace}
    (oneLine : ∀ c ∈ front, c.1 ≠ '\n') (split : linesOf behind = first :: lower) :
    linesOf (front ++ behind) = (front ++ first) :: lower := by
  induction front with
  | nil => exact split
  | cons c front induction =>
      rcases List.forall_mem_cons.mp oneLine with ⟨here, rest⟩
      rw [List.cons_append, linesOf, if_neg here, induction rest]
      rfl

theorem linesOf_mark_append {origin : Origin} {line : List Char} (oneLine : '\n' ∉ line)
    (behind : Trace) :
    linesOf (origin.mark (line ++ ['\n']) ++ behind) =
      origin.mark (line ++ ['\n']) :: linesOf behind := by
  rw [Origin.mark_append, List.append_assoc]
  refine linesOf_append_of_notMem ?_ (if_pos rfl)
  intro c member same
  exact oneLine (same ▸ (Origin.mem_mark.mp member).1)

theorem Layout.Plain.linesOf_newline {layout : Layout} (plain : layout.Plain) (behind : Trace) :
    linesOf (Origin.layout.mark layout.newline.toList ++ behind) =
      Origin.layout.mark layout.newline.toList :: linesOf behind := by
  rcases plain.newline with newline | newline
  · rw [newline]
    exact linesOf_mark_append List.not_mem_nil behind
  · rw [newline]
    exact @linesOf_mark_append _ ['\r'] (by decide) behind

/-! ## Lines of a block -/

theorem Layout.mem_indentOf {before : List Char} {c : Char} (member : c ∈ indentOf before) :
    c = ' ' ∨ c = '\t' := by
  simpa using List.mem_takeWhile_imp member

theorem notMem_of_indents {chars : List Char} (indents : ∀ c ∈ chars, c = ' ' ∨ c = '\t') :
    '\n' ∉ chars := by
  intro member
  rcases indents _ member with same | same <;> cases same

theorem Origin.mark_oneLine {origin : Origin} {chars : List Char} (oneLine : '\n' ∉ chars) :
    ∀ c ∈ origin.mark chars, c.1 ≠ '\n' :=
  fun _ member same => oneLine (same ▸ (Origin.mem_mark.mp member).1)

section

variable {layout : Layout} {indent : List Char}

theorem Layout.Plain.ownLine_oneLine (plain : layout.Plain)
    (indents : ∀ c ∈ indent, c = ' ' ∨ c = '\t') {line : List Char} (oneLine : '\n' ∉ line) :
    ∀ c ∈ layout.ownLine indent line, c.1 ≠ '\n' := by
  intro c member
  rw [ownLine] at member
  split at member
  · cases member
  · rcases List.mem_append.mp member with member | member
    · refine Origin.mark_oneLine (notMem_of_indents fun c member => ?_) c member
      rcases List.mem_append.mp member with member | member
      · exact indents c member
      · exact plain.indentUnit c member
    · exact Origin.mark_oneLine oneLine c member

/-- Every line of a block ends the line before it and begins its own. -/
theorem Layout.Plain.exists_linesOf_block (plain : layout.Plain)
    (indents : ∀ c ∈ indent, c = ' ' ∨ c = '\t') {lines : List (List Char)}
    (oneLine : ∀ line ∈ lines, '\n' ∉ line) {behind first : Trace} {lower : List Trace}
    (split : linesOf behind = first :: lower) (ends : EndsLine layout first) :
    ∃ lineEnd stretch,
      linesOf (lines.flatMap (fun line =>
        Origin.layout.mark layout.newline.toList ++ layout.ownLine indent line) ++ behind) =
          lineEnd :: (stretch ++ lower) ∧
      EndsLine layout lineEnd ∧ List.Forall₂ (PlacedOn layout indent) lines stretch := by
  induction lines with
  | nil => exact ⟨first, [], split, ends, .nil⟩
  | cons line lines induction =>
      rcases List.forall_mem_cons.mp oneLine with ⟨here, later⟩
      rcases induction later with ⟨lineEnd, stretch, lines, lineEnds, placed⟩
      refine ⟨_, (layout.ownLine indent line ++ lineEnd) :: stretch, ?_, .inl rfl,
        .cons ⟨lineEnd, lineEnds, rfl⟩ placed⟩
      rw [List.flatMap_cons, List.append_assoc, List.append_assoc, plain.linesOf_newline,
        linesOf_append_of_notMem (plain.ownLine_oneLine indents here) lines]
      rfl

theorem Layout.origin_of_mem_ownLine {line : List Char} {c : Char × Origin}
    (member : c ∈ layout.ownLine indent line) : c.2 ≠ .source := by
  rw [ownLine] at member
  split at member
  · cases member
  · rcases List.mem_append.mp member with member | member
    · exact Origin.ne_of_mem_mark (by decide) member
    · exact Origin.ne_of_mem_mark (by decide) member

namespace EndsLine

variable {ending : Trace} {c : Char × Origin}

theorem origin_ne_stub (ends : EndsLine layout ending) (member : c ∈ ending) : c.2 ≠ .stub := by
  rcases ends with rfl | ⟨blanks, _, rfl⟩
  · exact Origin.ne_of_mem_mark (by decide) member
  · exact Origin.ne_of_mem_mark (by decide) member

theorem isBlank_of_source (ends : EndsLine layout ending) (member : c ∈ ending)
    (source : c.2 = .source) : Text.isBlank c.1 = true := by
  rcases ends with rfl | ⟨blanks, blank, rfl⟩
  · rw [(Origin.mem_mark.mp member).2] at source
    cases source
  · exact blank _ (Origin.mem_mark.mp member).1

end EndsLine

theorem PlacedOn.unmixed {line : List Char} {placed : Trace}
    (on : PlacedOn layout indent line placed) : Unmixed placed := by
  rcases on with ⟨ending, ends, rfl⟩
  intro c _ _ d member source
  rcases List.mem_append.mp member with member | member
  · exact absurd source (Layout.origin_of_mem_ownLine member)
  · exact ends.isBlank_of_source member source

theorem unmixed_of_placed {lines : List (List Char)} {stretch : List Trace}
    (placed : List.Forall₂ (PlacedOn layout indent) lines stretch) :
    ∀ line ∈ stretch, Unmixed line := by
  induction placed with
  | nil => exact nofun
  | cons first _ induction => exact List.forall_mem_cons.mpr ⟨first.unmixed, induction⟩

theorem unmixed_of_noStub {line : Trace} (noStub : ∀ c ∈ line, c.2 ≠ .stub) : Unmixed line :=
  fun c member stub => absurd stub (noStub c member)

end

/-! ## Lines of a source -/

theorem ne_of_oneLine {line : List Char} (oneLine : '\n' ∉ line) :
    ∀ c ∈ line, decide (c ≠ '\n') = true :=
  fun _ member => decide_eq_true fun same => oneLine (same ▸ member)

theorem Layout.isRestBlank_line {line : List Char} (oneLine : '\n' ∉ line) (more : List Char) :
    isRestBlank (line ++ '\n' :: more) = line.all Text.isBlank := by
  rw [isRestBlank, List.takeWhile_append_of_pos (ne_of_oneLine oneLine)]
  simp

theorem Layout.mem_of_isRestBlank_brace {before after : List Char}
    (blank : isRestBlank (before ++ '\x7b' :: after) = true) : '\n' ∈ before := by
  by_contra oneLine
  rw [isRestBlank, List.takeWhile_append_of_pos (ne_of_oneLine oneLine)] at blank
  simp [Text.isBlank, Text.inRanges, Text.blankRanges] at blank

/-- If nothing but blanks follows an anchor on its line, they end that line. -/
theorem Anchored.exists_blanks {front rest : List Char} {classes : List ClassEdit}
    (anchored : Anchored front rest classes) (layout : Layout)
    (blank : Layout.isRestBlank rest = true) :
    ∃ blanks lower, (∀ c ∈ blanks, Text.isBlank c = true) ∧
      linesOf (layout.weave front rest classes) = Origin.source.mark blanks :: lower := by
  -- A line feed in what stands before the next brace ends the line of the anchor.
  have broken {line more : List Char} (oneLine : '\n' ∉ line)
      (blank : Layout.isRestBlank (line ++ '\n' :: more) = true) (behind : Trace) :
      ∃ blanks lower, (∀ c ∈ blanks, Text.isBlank c = true) ∧
        linesOf (Origin.source.mark (line ++ ['\n']) ++ behind) =
          Origin.source.mark blanks :: lower := by
    rw [Layout.isRestBlank_line oneLine, List.all_eq_true] at blank
    refine ⟨_, _, fun c member => ?_, linesOf_mark_append oneLine behind⟩
    rcases List.mem_append.mp member with member | member
    · exact blank c member
    · rw [List.mem_singleton.mp member]
      decide
  cases anchored with
  | nil =>
      by_cases member : '\n' ∈ rest
      · rcases List.eq_append_cons_of_mem member with ⟨line, more, rfl, oneLine⟩
        rw [Layout.weave, List.append_cons, Origin.mark_append]
        exact broken oneLine blank _
      · refine ⟨rest, [], ?_, ?_⟩
        · rw [Layout.isRestBlank, List.takeWhile_eq_self_iff.mpr (ne_of_oneLine member)] at blank
          exact List.all_eq_true.mp blank
        · have lines := linesOf_append_of_notMem
            (@Origin.mark_oneLine .source _ member) (rfl : linesOf [] = [[]])
          rwa [List.append_nil] at lines
  | @cons _ before after edited later place =>
      rcases List.eq_append_cons_of_mem (Layout.mem_of_isRestBlank_brace blank) with
        ⟨line, more, rfl, oneLine⟩
      rw [List.append_assoc, List.cons_append] at blank
      have split : line ++ '\n' :: more ++ ['\x7b'] = line ++ ['\n'] ++ (more ++ ['\x7b']) := by
        simp
      rw [Layout.weave_cons place, split, Origin.mark_append, List.append_assoc]
      exact broken oneLine blank _

/-! ## Lines of a rendered file -/

/-- The first line goes on where a text stopped, so there is no stub text on it. -/
def OpensUnmixed (trace : Trace) : Prop :=
  ∃ first lower, linesOf trace = first :: lower ∧ (∀ c ∈ first, c.2 ≠ .stub) ∧
    ∀ line ∈ lower, Unmixed line

theorem exists_classLines {layout : Layout} (plain : layout.Plain) {before after : List Char}
    {edited : ClassEdit} {later : List ClassEdit}
    (anchored : Anchored (before ++ ['\x7b']) after later)
    (opens : OpensUnmixed (layout.weave (before ++ ['\x7b']) after later)) :
    ∃ lineEnd stretch below,
      linesOf (layout.markedBlock (before ++ ['\x7b']) after edited.block.toList ++
        layout.weave (before ++ ['\x7b']) after later) = lineEnd :: (stretch ++ below) ∧
      ClassLines layout edited later before (Layout.indentOf (before ++ ['\x7b'])) after
        lineEnd stretch below ∧
      ∀ line ∈ below, Unmixed line := by
  rcases opens with ⟨first, lower, lines, noStub, unmixed⟩
  have indents := fun c => @Layout.mem_indentOf (before ++ ['\x7b']) c
  have oneLine := fun line => @Text.notMem_of_mem_lines edited.block.toList line
  rw [Layout.markedBlock, List.append_assoc]
  cases blank : Layout.isRestBlank after with
  -- Blanks behind the brace end the last line of the block.
  | true =>
      rcases anchored.exists_blanks layout blank with ⟨blanks, lower', allBlank, lines'⟩
      rcases plain.exists_linesOf_block indents oneLine lines' (.inr ⟨blanks, allBlank, rfl⟩) with
        ⟨lineEnd, stretch, whole, lineEnds, placed⟩
      rcases List.cons.inj (lines.symm.trans lines') with ⟨_, rfl⟩
      refine ⟨lineEnd, stretch, _, whole, ⟨lineEnds, placed, ?_⟩, unmixed⟩
      rintro ⟨c, member, inked⟩
      rw [List.all_eq_true.mp blank c member] at inked
      cases inked
  -- Anything else follows a newline and the indent.
  | false =>
      have fresh : linesOf (Origin.layout.mark
          (layout.newline.toList ++ Layout.indentOf (before ++ ['\x7b'])) ++
            layout.weave (before ++ ['\x7b']) after later) =
          Origin.layout.mark layout.newline.toList ::
            (Origin.layout.mark (Layout.indentOf (before ++ ['\x7b'])) ++ first) :: lower := by
        rw [Origin.mark_append, List.append_assoc, plain.linesOf_newline,
          linesOf_append_of_notMem (Origin.mark_oneLine (notMem_of_indents indents)) lines]
      rcases plain.exists_linesOf_block indents oneLine fresh (.inl rfl) with
        ⟨lineEnd, stretch, whole, lineEnds, placed⟩
      refine ⟨lineEnd, stretch, _, whole, ⟨lineEnds, placed, fun _ => ?_⟩, ?_⟩
      · have flat := flatten_linesOf (layout.weave (before ++ ['\x7b']) after later)
        rw [lines, List.flatten_cons] at flat
        rw [List.flatten_cons, List.append_assoc, flat]
      · refine List.forall_mem_cons.mpr ⟨unmixed_of_noStub fun c member => ?_, unmixed⟩
        rcases List.mem_append.mp member with member | member
        · exact Origin.ne_of_mem_mark (by decide) member
        · exact noStub c member

theorem OpensUnmixed.append {front behind : Trace} (opens : OpensUnmixed behind)
    (noStub : ∀ c ∈ front, c.2 ≠ .stub) : OpensUnmixed (front ++ behind) := by
  rcases opens with ⟨first, lower, lines, firstNoStub, unmixed⟩
  rcases exists_linesOf_append front with ⟨above, openLine, whole, join⟩
  have openNoStub : ∀ c ∈ openLine ++ first, c.2 ≠ .stub := by
    intro c member
    rcases List.mem_append.mp member with member | member
    · exact noStub c (whole ▸ List.mem_append_right _ member)
    · exact firstNoStub c member
  have aboveNoStub : ∀ line ∈ above, ∀ c ∈ line, c.2 ≠ .stub := fun line member c inside =>
    noStub c (whole ▸ List.mem_append_left _ (List.mem_flatten.mpr ⟨line, member, inside⟩))
  have lowerUnmixed := List.forall_mem_cons.mpr ⟨unmixed_of_noStub openNoStub, unmixed⟩
  cases above with
  | nil => exact ⟨_, _, join lines, openNoStub, unmixed⟩
  | cons line above =>
      rcases List.forall_mem_cons.mp aboveNoStub with ⟨here, later⟩
      refine ⟨_, _, join lines, here, fun other member => ?_⟩
      rcases List.mem_append.mp member with member | member
      · exact unmixed_of_noStub (later other member)
      · exact lowerUnmixed other member

theorem Anchored.opensUnmixed {layout : Layout} (plain : layout.Plain) {front rest : List Char}
    {classes : List ClassEdit} (anchored : Anchored front rest classes) :
    OpensUnmixed (layout.weave front rest classes) := by
  have source (chars : List Char) : ∀ c ∈ Origin.source.mark chars, c.2 ≠ .stub :=
    fun c => Origin.ne_of_mem_mark (by decide)
  induction anchored with
  | @nil front rest =>
      have nothing : OpensUnmixed [] := ⟨[], [], rfl, nofun, nofun⟩
      have opens := nothing.append (source rest)
      rwa [List.append_nil] at opens
  | @cons front before after edited later place anchored induction =>
      rcases exists_classLines plain anchored induction with
        ⟨lineEnd, stretch, below, lines, parts, unmixed⟩
      rw [Layout.weave_cons place]
      refine OpensUnmixed.append ⟨_, _, lines, fun c => parts.lineEnds.origin_ne_stub, ?_⟩
        (source _)
      intro line member
      rcases List.mem_append.mp member with member | member
      · exact unmixed_of_placed parts.placed line member
      · exact unmixed line member

/-- The line of the brace in a text that is cut behind it. -/
theorem CutAt.exists_braceLine {contents : String} {anchor : Anchor} {before after : List Char}
    (cut : CutAt contents anchor before after) :
    ∃ upper inked,
      before = upper ++ Layout.indentOf (before ++ ['\x7b']) ++ inked ∧
      BraceLine contents anchor upper (Layout.indentOf (before ++ ['\x7b'])) inked after := by
  let upper := (before.reverse.dropWhile (· ≠ '\n')).reverse
  let line := (before.reverse.takeWhile (· ≠ '\n')).reverse
  let isIndent (c : Char) : Bool := c = ' ' || c = '\t'
  have split : before = upper ++ line := by
    rw [← List.reverse_append, List.takeWhile_append_dropWhile, List.reverse_reverse]
  have indent : Layout.indentOf (before ++ ['\x7b']) = line.takeWhile isIndent := by
    have brace : ∀ chars : List Char,
        (chars ++ ['\x7b']).takeWhile isIndent = chars.takeWhile isIndent := by
      intro chars
      induction chars with
      | nil => rfl
      | cons c chars induction =>
          rw [List.cons_append, List.takeWhile_cons, List.takeWhile_cons, induction]
    rw [Layout.indentOf, List.reverse_concat, List.takeWhile_cons_of_pos (by decide),
      List.reverse_cons]
    exact brace line
  have whole : before = upper ++ line.takeWhile isIndent ++ line.dropWhile isIndent := by
    rw [List.append_assoc, List.takeWhile_append_dropWhile]
    exact split
  refine ⟨upper, line.dropWhile isIndent, by rw [indent]; exact whole, ?_⟩
  constructor
  · rw [indent, ← whole]
    exact cut.whole
  · rw [indent, ← whole]
    exact cut.place
  · have first := List.head?_dropWhile_not (· ≠ '\n') before.reverse
    rw [List.getLast?_reverse]
    cases broken : before.reverse.dropWhile (· ≠ '\n') with
    | nil => exact .inl (List.reverse_eq_nil_iff.mpr broken)
    | cons c rest =>
        rw [broken] at first
        exact .inr (congrArg some (by simpa using first))
  · exact fun c => Layout.mem_indentOf
  · have first := List.head?_dropWhile_not isIndent line
    cases inked : line.dropWhile isIndent with
    | nil =>
        rintro c ⟨⟩
        decide
    | cons d rest =>
        rw [inked] at first
        rintro c ⟨⟩
        simpa [isIndent] using first
  · intro member
    have inside : '\n' ∈ line := (List.dropWhile_sublist _).subset member
    simpa using List.mem_takeWhile_imp (List.mem_reverse.mp inside)

/-- What is where in a rendered file. -/
structure LinesApart (edit : FileEdit) (layout : Layout) (contents text : String) : Prop where
  whole : (edit.trace layout contents).text = text.toList
  source : (edit.trace layout contents).textFrom .source = contents.toList
  stubs : (edit.trace layout contents).textFrom .stub =
    edit.inOrder.flatMap fun edited => (Text.lines edited.block.toList).flatten
  unmixed : ∀ line ∈ linesOf (edit.trace layout contents), Unmixed line
  order : edit.inOrder.Perm edit.classes
  classes : ∀ earlier edited later, edit.inOrder = earlier ++ edited :: later →
    ∃ upper indent inked after, BraceLine contents edited.anchor upper indent inked after ∧
      ∃ above openLine lineEnd stretch below,
        linesOf (edit.trace layout contents) =
          above ++ (openLine ++ ('\x7b', .source) :: lineEnd) :: (stretch ++ below) ∧
        Trace.textFrom .source (above.flatten ++ openLine) = upper ++ indent ++ inked ∧
        ClassLines layout edited later (upper ++ indent ++ inked) indent after lineEnd
          stretch below

/-- Whatever stands around the braces of a file, also when they share a line, lines of stubs and
lines of the source do not run together. -/
theorem FileEdit.render_linesApart {edit : FileEdit} {layout : Layout} {contents text : String}
    (rendered : edit.render contents layout = .ok text) (plain : layout.Plain) :
    LinesApart edit layout contents text := by
  have anchored := anchored_inOrder (render_eq_ok_iff.mp rendered).1
  constructor
  · exact text_trace rendered
  · exact anchored.textFrom_source_weave layout
  · exact anchored.textFrom_stub_weave layout
  · rcases anchored.opensUnmixed plain with ⟨first, lower, lines, noStub, unmixed⟩
    rw [trace, lines]
    exact List.forall_mem_cons.mpr ⟨unmixed_of_noStub noStub, unmixed⟩
  · exact perm_inOrder edit
  · intro earlier edited later order
    rw [trace, order]
    rw [order] at anchored
    rcases anchored.exists_weave layout with
      ⟨head, before, after, whole, place, behind, source, woven⟩
    have cut : CutAt contents edited.anchor before after := ⟨whole, place⟩
    rcases cut.exists_braceLine with ⟨upper, inked, split, braceLine⟩
    rcases exists_classLines plain behind (behind.opensUnmixed plain) with
      ⟨lineEnd, stretch, below, lines, parts, _⟩
    rcases exists_linesOf_append head with ⟨above, openLine, joined, join⟩
    refine ⟨upper, _, inked, after, braceLine, above, openLine, lineEnd, stretch, below, ?_, ?_, ?_⟩
    · rw [woven]
      refine join ?_
      rw [linesOf, if_neg (by decide)]
      exact congrArg (List.modifyHead _) lines
    · rw [joined, source]
      exact split
    · rw [← split]
      exact parts

namespace SharedLine

/-! Two classes whose braces share a line, the inner one first. -/

def contents : String :=
  "\tclass A \x7bclass B \x7b\x7d\x7d\n"

def edit : FileEdit :=
  let edited (position : UInt64) (text : String) : ClassEdit :=
    { id := "", key := default, name := none, anchor := ⟨position⟩,
      stubs := [⟨"m", .property, text⟩] }
  { path := ⟨"shapes.ts"⟩, classes := [edited 19 "b;\r\n\nc;", edited 10 "a;\n"] }

def text : String :=
  "\tclass A \x7b\n\t    a;\n\tclass B \x7b\n\t    b;\n\n\t    c;\n\t\x7d\x7d\n"

theorem render_linesApart_nested :
    edit.render contents {} = .ok text ∧ Layout.Plain {} ∧ LinesApart edit {} contents text := by
  have rendered : edit.render contents {} = .ok text := by decide +kernel
  have plain : Layout.Plain {} := ⟨.inl rfl, by simp⟩
  exact ⟨rendered, plain, FileEdit.render_linesApart rendered plain⟩

end SharedLine

end MemberStubs
