import MemberStubs.Proofs.Repair.ClassRepair
import MemberStubs.Proofs.Source.LinesApart
import MemberStubs.Proofs.Stub.Brackets

/-! Brackets of a rendered file. A block opens nothing that it does not close, so in front of every
character of the source the same brackets are open as before. -/

namespace MemberStubs

open Text

/-- At every character of the source, and at the end, the same brackets are open in a trace as in the
source. -/
structure Trace.KeepsOpen (trace : Trace) : Prop where
  whole : ∀ stray opened,
    openAfter stray opened trace.text = openAfter stray opened (trace.textFrom .source)
  within : ∀ stray opened (front : Trace) c behind, trace = front ++ (c, .source) :: behind →
    openAfter stray opened front.text = openAfter stray opened (front.textFrom .source)

namespace Trace.KeepsOpen

theorem mark_source (chars : List Char) : KeepsOpen (Origin.source.mark chars) := by
  refine ⟨fun stray opened => by rw [text_mark, textFrom_mark], ?_⟩
  intro stray opened front c behind split
  rcases List.append_eq_map_iff.mp split.symm with ⟨first, _, _, rfl, _⟩
  exact congrArg _ ((text_mark .source first).trans (textFrom_mark .source first).symm)

/-- A part without characters of the source has to be balanced. -/
theorem of_balanced {trace : Trace} (balanced : Balanced trace.text)
    (inserted : ∀ c ∈ trace, c.2 ≠ .source) : KeepsOpen trace := by
  have nothing : trace.textFrom .source = [] := by
    rw [textFrom, List.filter_eq_nil_iff.mpr fun c member => by simpa using inserted c member]
    rfl
  refine ⟨fun stray opened => ?_, fun stray opened front c behind split => ?_⟩
  · rw [nothing, balanced.openAfter_eq]
    rfl
  · exact absurd rfl (inserted (c, .source) (split ▸ by simp))

theorem append {first second : Trace} (keeps : KeepsOpen first) (keeps' : KeepsOpen second) :
    KeepsOpen (first ++ second) := by
  refine ⟨fun stray opened => ?_, fun stray opened front c behind split => ?_⟩
  · rw [text_append, textFrom_append, openAfter_append, openAfter_append, keeps.whole, keeps'.whole]
  · rcases List.append_eq_append_iff.mp split with ⟨between, rfl, rest⟩ | ⟨between, whole, rest⟩
    · rw [text_append, textFrom_append, openAfter_append, openAfter_append, keeps.whole,
        keeps'.within _ _ between c behind rest]
    · cases between with
      | nil =>
          rw [List.append_nil] at whole
          rw [← whole]
          exact keeps.whole stray opened
      | cons d between =>
          cases rest
          exact keeps.within stray opened front c between whole

end Trace.KeepsOpen

/-! ## Blocks -/

section

variable {layout : Layout}

theorem filter_isBracket_of_indents {chars : List Char}
    (indents : ∀ c ∈ chars, c = ' ' ∨ c = '\t') : chars.filter isBracket = [] := by
  refine List.filter_eq_nil_iff.mpr fun c member => ?_
  rcases indents c member with rfl | rfl <;> decide

theorem Layout.Plain.filter_newline (plain : layout.Plain) :
    layout.newline.toList.filter isBracket = [] := by
  rcases plain.newline with newline | newline <;>
    · rw [newline]
      decide

/-- Laying out a text adds no brackets to it and takes none away. -/
theorem Layout.Plain.filter_placedBlock (plain : layout.Plain) (before after text : List Char) :
    (layout.placedBlock before after text).filter isBracket = text.filter isBracket := by
  have indent : (indentOf before).filter isBracket = [] :=
    filter_isBracket_of_indents fun c => mem_indentOf
  have unit := filter_isBracket_of_indents plain.indentUnit
  have line (line : List Char) :
      (layout.placedLine (indentOf before) line).filter isBracket = line.filter isBracket := by
    rw [placedLine, List.filter_append, plain.filter_newline, List.nil_append]
    split
    · next empty => rw [List.isEmpty_iff.mp empty]
    · rw [List.filter_append, List.filter_append, indent, unit]
      rfl
  rw [placedBlock, List.filter_append, filter_flatMap_lines line]
  split
  · exact List.append_nil _
  · rw [List.filter_append, plain.filter_newline, indent]
    exact List.append_nil _

theorem Layout.Plain.keepsOpen_markedBlock (plain : layout.Plain) {text : List Char}
    (balanced : Balanced text) (before after : List Char) :
    (layout.markedBlock before after text).KeepsOpen := by
  refine .of_balanced ?_ fun c member source => ?_
  · rw [text_markedBlock]
    exact balanced.of_filter_eq (plain.filter_placedBlock before after text)
  · have nothing : (layout.markedBlock before after text).textFrom .source = [] :=
      textFrom_source_markedBlock before after text
    rw [Trace.textFrom, List.map_eq_nil_iff, List.filter_eq_nil_iff] at nothing
    exact nothing c member (by simpa using source)

theorem Anchored.keepsOpen_weave (plain : layout.Plain) {front rest : List Char}
    {classes : List ClassEdit} (anchored : Anchored front rest classes)
    (balanced : ∀ edited ∈ classes, Balanced edited.block.toList) :
    (layout.weave front rest classes).KeepsOpen := by
  induction anchored with
  | nil => exact .mark_source _
  | cons place _ induction =>
      rcases List.forall_mem_cons.mp balanced with ⟨here, later⟩
      rw [Layout.weave_cons place]
      exact (Trace.KeepsOpen.mark_source _).append
        ((plain.keepsOpen_markedBlock here _ _).append (induction later))

end

/-! ## Stubs of members -/

/-- A stub for a member whose texts close every bracket that they open. -/
def Stub.Copies (stub : Stub) : Prop :=
  ∃ (style : StubStyle) (member : Member), Balanced style.indentUnit.toList ∧
    (∀ text ∈ member.texts, Copyable text) ∧ style.synthesize member = .ok stub

theorem ClassEdit.balanced_block {edited : ClassEdit} (copies : ∀ stub ∈ edited.stubs, stub.Copies) :
    Balanced edited.block.toList := by
  refine balanced_intercalate (by decide) (List.forall_mem_map.mpr fun stub member => ?_)
  rcases copies stub member with ⟨style, member, indent, copyable, synthesized⟩
  exact StubStyle.balanced_synthesize indent copyable synthesized

/-- The characters of a rendered file with their origins, and what is open in front of those that are
from the source. -/
structure KeepsBrackets (edit : FileEdit) (layout : Layout) (contents text : String) : Prop where
  whole : (edit.trace layout contents).text = text.toList
  source : (edit.trace layout contents).textFrom .source = contents.toList
  opened : ∀ stray (front : Trace) c behind,
    edit.trace layout contents = front ++ (c, .source) :: behind →
      openAfter stray [] front.text = openAfter stray [] (front.textFrom .source)
  ending : ∀ stray, openAfter stray [] text.toList = openAfter stray [] contents.toList

/-- A stub closes every bracket that it opens if what it copies does. A file with such stubs has, in
front of every character of its source, the brackets open that were open there in the source,
whatever is done about stray ones. -/
theorem FileEdit.render_keepsBrackets :
    (∀ (style : StubStyle) (member : Member), Balanced style.indentUnit.toList →
      member.isSupported = true → (∀ text ∈ member.texts, Copyable text) →
        ∃ stub, style.synthesize member = .ok stub ∧ Balanced stub.text.toList) ∧
    ∀ (edit : FileEdit) (layout : Layout) (contents text : String),
      (∀ edited ∈ edit.classes, ∀ stub ∈ edited.stubs, stub.Copies) → layout.Plain →
        edit.render contents layout = .ok text → KeepsBrackets edit layout contents text := by
  refine ⟨fun style member indent supported copyable => ?_,
    fun edit layout contents text copies plain rendered => ?_⟩
  · rcases style.synthesize_of_isSupported supported with ⟨stub, synthesized, _⟩
    exact ⟨stub, synthesized, StubStyle.balanced_synthesize indent copyable synthesized⟩
  · have anchored := anchored_inOrder (render_eq_ok_iff.mp rendered).1
    have keeps : (edit.trace layout contents).KeepsOpen :=
      anchored.keepsOpen_weave plain fun edited member =>
        ClassEdit.balanced_block (copies edited ((perm_inOrder edit).mem_iff.mp member))
    have whole := text_trace rendered
    have source : (edit.trace layout contents).textFrom .source = contents.toList :=
      anchored.textFrom_source_weave layout
    refine ⟨whole, source, fun stray => keeps.within stray [], fun stray => ?_⟩
    rw [← whole, ← source]
    exact keeps.whole stray []

namespace Shelf

/-! A class in a class, each with a stub for a member whose types have brackets of every kind. -/

def contents : String :=
  "class A \x7bf() \x7breturn [class B \x7b\x7d];\x7d\x7d\n"

def style : StubStyle := { policy := .typeDefault }

def slots : Member :=
  { name := "[slots]", shape := .property "(A[] | \x7b at(i: number): B \x7d)[]" }

def store : Member :=
  { name := "store"
    shape := .method [⟨"T", "(a: [B]) => B", none⟩] [{ name := "where", type := "B[]" }]
      "-1 | Map<[B], B>" }

def stubs (member : Member) : List Stub :=
  (style.synthesize member).toOption.toList

def edit : FileEdit :=
  let edited (position : UInt64) (member : Member) : ClassEdit :=
    { id := "", key := default, name := none, anchor := ⟨position⟩, stubs := stubs member }
  { path := ⟨"shelf.ts"⟩, classes := [edited 9 store, edited 31 slots] }

theorem copyable :
    ∀ member ∈ [store, slots], ∀ text ∈ member.texts, Copyable text := by
  have plain : ∀ member ∈ [store, slots], ∀ text ∈ member.texts, Balanced text.toList ∧
      text.toList.any TypeText.isQuote = false := by
    decide +kernel
  intro member known text inside
  rcases plain member known text inside with ⟨balanced, unquoted⟩
  exact ⟨balanced, fun c held => Bool.eq_false_iff.mpr (List.any_eq_false.mp unquoted c held)⟩

theorem copies {member : Member} (known : member ∈ [store, slots]) :
    ∀ stub ∈ stubs member, stub.Copies := by
  intro stub written
  refine ⟨style, member, by decide +kernel, copyable member known, ?_⟩
  rw [stubs, Option.mem_toList] at written
  cases synthesized : style.synthesize member with
  | error _ => simp [synthesized, Except.toOption] at written
  | ok other => simpa [synthesized, Except.toOption] using written

def text : String :=
  "class A \x7b\n    store<T extends (a: [B]) => B>(where: B[]): -1 | Map<[B], B> \x7b\n" ++
    "        return -1;\n    \x7d\nf() \x7breturn [class B \x7b\n" ++
    "    [slots]: (A[] | \x7b at(i: number): B \x7d)[] = [];\n\x7d];\x7d\x7d\n"

theorem render_keepsBrackets_shelf :
    (∃ stub, style.synthesize store = .ok stub ∧ Balanced stub.text.toList) ∧
      edit.render contents {} = .ok text ∧ KeepsBrackets edit {} contents text := by
  have rendered : edit.render contents {} = .ok text := by decide +kernel
  have indent : Balanced style.indentUnit.toList := by decide +kernel
  have copies : ∀ edited ∈ edit.classes, ∀ stub ∈ edited.stubs, stub.Copies :=
    List.forall_mem_cons.mpr
      ⟨copies (List.mem_cons_self ..),
        List.forall_mem_singleton.mpr (copies (List.mem_cons_of_mem _ (List.mem_singleton_self _)))⟩
  have texts := copyable store (List.mem_cons_self ..)
  exact ⟨FileEdit.render_keepsBrackets.1 style store indent rfl texts, rendered,
    FileEdit.render_keepsBrackets.2 edit {} contents text copies ⟨.inl rfl, by simp⟩ rendered⟩

end Shelf

end MemberStubs
