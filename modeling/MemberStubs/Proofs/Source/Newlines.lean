import MemberStubs.Application.Outcome
import MemberStubs.Proofs.Source.LinesApart

/-! Newlines of a rendered file. With the newline that the source itself tells, a file that returns
the carriage before every line feed keeps doing so, and a file without carriage returns gets none. -/

namespace MemberStubs

open Text

/-! ## Carriage returns before line feeds -/

namespace Layout

variable {layout : Layout}

theorem returned_placedBlock (newline : layout.newline = "\r\n")
    (indents : ∀ c ∈ layout.indentUnit.toList, c = ' ' ∨ c = '\t')
    (before after text : List Char) : FeedsReturned (layout.placedBlock before after text) := by
  have feed : FeedsReturned layout.newline.toList := newline ▸ FeedsReturned.newline
  have indent : '\n' ∉ indentOf before := notMem_of_indents fun _ => mem_indentOf
  refine .append (.flatMap fun line member => feed.append ?_) ?_
  · split
    · exact .of_notMem List.not_mem_nil
    · refine .of_notMem fun inside => ?_
      rcases List.mem_append.mp inside with inside | inside
      · rcases List.mem_append.mp inside with inside | inside
        · exact indent inside
        · exact notMem_of_indents indents inside
      · exact notMem_of_mem_lines member inside
  · split
    · exact .of_notMem List.not_mem_nil
    · exact feed.append (.of_notMem indent)

end Layout

/-- Blocks stand behind braces, so what the source has behind a block does not begin with a line
feed that was returned before it. -/
theorem Anchored.returned_weave {layout : Layout} (newline : layout.newline = "\r\n")
    (indents : ∀ c ∈ layout.indentUnit.toList, c = ' ' ∨ c = '\t') {front rest : List Char}
    {classes : List ClassEdit} (anchored : Anchored front rest classes)
    (returned : FeedsReturned rest) :
    FeedsReturned (layout.weave front rest classes).text := by
  induction anchored with
  | nil =>
      rw [Layout.weave, Trace.text_mark]
      exact returned
  | cons place _ induction =>
      rw [Layout.weave_cons place, Trace.text_append, Trace.text_append, Trace.text_mark,
        Layout.text_markedBlock]
      have behind := induction (returned.behind (by decide))
      rw [List.append_cons] at returned
      exact returned.front.append ((Layout.returned_placedBlock newline indents _ _ _).append behind)

/-! ## Characters of a rendered file -/

theorem mem_intercalate {separator : List Char} {parts : List (List Char)} {c : Char}
    (member : c ∈ separator.intercalate parts) : c ∈ separator ∨ ∃ part ∈ parts, c ∈ part := by
  induction parts with
  | nil => cases member
  | cons first later induction =>
      cases later with
      | nil =>
          rw [List.intercalate_singleton] at member
          exact .inr ⟨first, List.mem_cons_self .., member⟩
      | cons second later =>
          rw [List.intercalate_cons_cons, List.append_assoc] at member
          rcases List.mem_append.mp member with member | member
          · exact .inr ⟨first, List.mem_cons_self .., member⟩
          · rcases List.mem_append.mp member with member | member
            · exact .inl member
            · rcases induction member with member | ⟨part, held, member⟩
              · exact .inl member
              · exact .inr ⟨part, List.mem_cons_of_mem _ held, member⟩

theorem ClassEdit.mem_block {edited : ClassEdit} {c : Char} (member : c ∈ edited.block.toList) :
    c = '\n' ∨ ∃ stub ∈ edited.stubs, c ∈ stub.text.toList := by
  rw [block, String.toList_intercalate, List.map_map] at member
  rcases mem_intercalate member with member | ⟨part, held, member⟩
  · exact .inl (List.mem_singleton.mp member)
  · rcases List.mem_map.mp held with ⟨stub, owned, rfl⟩
    exact .inr ⟨stub, owned, member⟩

theorem Layout.mem_placedBlock {layout : Layout} {before after text : List Char} {c : Char}
    (member : c ∈ layout.placedBlock before after text) :
    c ∈ layout.newline.toList ∨ c ∈ layout.indentUnit.toList ∨ c = ' ' ∨ c = '\t' ∨
      c ∈ text := by
  rcases List.mem_append.mp member with member | member
  · rcases List.mem_flatMap.mp member with ⟨line, held, member⟩
    rcases List.mem_append.mp member with member | member
    · exact .inl member
    · split at member
      · cases member
      · rcases List.mem_append.mp member with member | member
        · rcases List.mem_append.mp member with member | member
          · rcases mem_indentOf member with blank | blank
            · exact .inr (.inr (.inl blank))
            · exact .inr (.inr (.inr (.inl blank)))
          · exact .inr (.inl member)
        · exact .inr (.inr (.inr (.inr (mem_of_mem_lines held member))))
  · split at member
    · cases member
    · rcases List.mem_append.mp member with member | member
      · exact .inl member
      · rcases mem_indentOf member with blank | blank
        · exact .inr (.inr (.inl blank))
        · exact .inr (.inr (.inr (.inl blank)))

theorem Anchored.mem_weave {layout : Layout} {front rest : List Char} {classes : List ClassEdit}
    (anchored : Anchored front rest classes) {c : Char}
    (member : c ∈ (layout.weave front rest classes).text) :
    c ∈ rest ∨ ∃ edited ∈ classes, ∃ before after,
      c ∈ layout.placedBlock before after edited.block.toList := by
  induction anchored with
  | nil =>
      rw [Layout.weave, Trace.text_mark] at member
      exact .inl member
  | @cons front before after edited later place _ induction =>
      rw [Layout.weave_cons place, Trace.text_append, Trace.text_append, Trace.text_mark,
        Layout.text_markedBlock] at member
      rw [List.append_cons]
      rcases List.mem_append.mp member with member | member
      · exact .inl (List.mem_append_left _ member)
      · rcases List.mem_append.mp member with member | member
        · exact .inr ⟨edited, List.mem_cons_self .., _, _, member⟩
        · rcases induction member with member | ⟨other, held, inside⟩
          · exact .inl (List.mem_append_right _ member)
          · exact .inr ⟨other, List.mem_cons_of_mem _ held, inside⟩

/-! ## The newline of a source -/

/-- A rendered file ends its lines as its source does, whatever the stubs do. -/
structure KeepsNewline (edit : FileEdit) (contents text : String) : Prop where
  returned : '\n' ∈ contents.toList → FeedsReturned contents.toList → FeedsReturned text.toList
  unreturned : '\r' ∉ contents.toList →
    (∀ edited ∈ edit.classes, ∀ stub ∈ edited.stubs, '\r' ∉ stub.text.toList) →
      '\r' ∉ text.toList

theorem FileEdit.render_keepsNewline {edit : FileEdit} {options : ApplyOptions}
    {contents text : String} (automatic : options.newline = none)
    (indents : ∀ c ∈ options.indentUnit.toList, c = ' ' ∨ c = '\t')
    (rendered : edit.render contents (options.layout contents) = .ok text) :
    KeepsNewline edit contents text := by
  have anchored := anchored_inOrder (render_eq_ok_iff.mp rendered).1
  have newline : (options.layout contents).newline = detectNewline contents.toList := by
    rw [ApplyOptions.layout, automatic]
    rfl
  constructor
  · intro broken returned
    rw [← text_trace rendered]
    exact anchored.returned_weave (newline.trans (detectNewline_of_returned broken returned))
      indents returned
  · intro source stubs member
    rw [← text_trace rendered] at member
    rcases anchored.mem_weave member with member | ⟨edited, held, before, after, member⟩
    · exact source member
    · rcases Layout.mem_placedBlock member with member | member | member | member | member
      · rw [newline, detectNewline_of_notMem source] at member
        simp at member
      · rcases indents _ member with same | same <;> cases same
      · cases member
      · cases member
      · rcases ClassEdit.mem_block member with same | ⟨stub, owned, member⟩
        · cases same
        · exact stubs edited ((perm_inOrder edit).mem_iff.mp held) stub owned member

namespace TwoNewlines

/-! One edit for two files that differ in their newlines, with a stub of two lines. -/

def edit : FileEdit :=
  { path := ⟨"shapes.ts"⟩
    classes := [{ id := "", key := default, name := none, anchor := ⟨9⟩,
                  stubs := [⟨"m", .method, "m() \x7b\n\x7d"⟩] }] }

def returned : String :=
  "class A \x7b\r\n\x7d\r\n"

def bare : String :=
  "class A \x7b\n\x7d\n"

theorem render_keepsNewline_each :
    edit.render returned (ApplyOptions.layout {} returned) =
        .ok "class A \x7b\r\n    m() \x7b\r\n    \x7d\r\n\x7d\r\n" ∧
      FeedsReturned "class A \x7b\r\n    m() \x7b\r\n    \x7d\r\n\x7d\r\n".toList ∧
      edit.render bare (ApplyOptions.layout {} bare) =
        .ok "class A \x7b\n    m() \x7b\n    \x7d\n\x7d\n" ∧
      '\r' ∉ "class A \x7b\n    m() \x7b\n    \x7d\n\x7d\n".toList := by
  have indents : ∀ c ∈ ({} : ApplyOptions).indentUnit.toList, c = ' ' ∨ c = '\t' := by simp
  have first : edit.render returned (ApplyOptions.layout {} returned) =
      .ok "class A \x7b\r\n    m() \x7b\r\n    \x7d\r\n\x7d\r\n" := by
    decide +kernel
  have second : edit.render bare (ApplyOptions.layout {} bare) =
      .ok "class A \x7b\n    m() \x7b\n    \x7d\n\x7d\n" := by
    decide +kernel
  have line (chars : List Char) (oneLine : '\n' ∉ chars) :
      FeedsReturned (chars ++ ['\r', '\n']) :=
    (FeedsReturned.of_notMem oneLine).append .newline
  have source : FeedsReturned returned.toList :=
    (line "class A \x7b".toList (by decide)).append (line ['\x7d'] (by decide))
  exact ⟨first, (FileEdit.render_keepsNewline rfl indents first).returned (by decide) source,
    second, (FileEdit.render_keepsNewline rfl indents second).unreturned (by decide) (by decide)⟩

end TwoNewlines

end MemberStubs
