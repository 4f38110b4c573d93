import MemberStubs.Proofs.TypeSyntax.Term
import MemberStubs.Proofs.TypeText.Renaming

/-! What the scan of a text sees in a written type. Brackets, commas, colons and dots leave it in a
context that tells, together with a look at what comes next, which role the next word has. -/

namespace MemberStubs

namespace TypeText.Context

def openings : List Char := ['(', '[', '\x7b', '<']

def closings : List Char := [')', ']', '\x7d', '>']

variable {context : Context} {c : Char}

theorem afterMark_blank : context.afterMark ' ' = context := by
  simp [afterMark, (by decide : Text.isBlank ' ' = true)]

theorem afterMark_plain (plain : c ∉ openings ++ closings) (visible : Text.isBlank c = false) :
    context.afterMark c = context.after c := by
  simp only [openings, closings, List.cons_append, List.nil_append, List.mem_cons,
    List.not_mem_nil, or_false, not_or] at plain
  simp [afterMark, after, visible, plain]

theorem afterMark_opening (opens : c ∈ openings) :
    context.afterMark c = ⟨some c, c :: context.brackets⟩ := by
  have visible : ∀ c ∈ openings, Text.isBlank c = false :=
    List.all_iff_forall_prop.mp (by decide)
  simp only [afterMark, visible c opens]
  simp only [openings] at opens
  simp [opens]

theorem afterMark_closing (closes : c ∈ closings) (noArrow : context.previous ≠ some '=') :
    context.afterMark c = ⟨some c, context.brackets.tail⟩ := by
  have visible : ∀ c ∈ closings, Text.isBlank c = false :=
    List.all_iff_forall_prop.mp (by decide)
  have others : ∀ c ∈ closings, c ∉ ['(', '[', '\x7b', '<'] :=
    List.all_iff_forall_prop.mp (by decide)
  simp only [afterMark, visible c closes]
  simp only [closings] at closes
  simp [others c closes, closes, noArrow]

theorem afterMark_arrow (arrow : context.previous = some '=') :
    context.afterMark '>' = context.after '>' := by
  simp [afterMark, after, arrow, (by decide : Text.isBlank '>' = false)]

end TypeText.Context

namespace TypeSyntax

open TypeText

/-! ## Words apart

No part that comes behind a word may begin with characters that go on with it. -/

theorem written_cons (part : Part) (later : List Part) :
    written (part :: later) = part.chars ++ written later := by
  rw [written, List.flatMap_cons, written]

theorem written_append (first second : List Part) :
    written (first ++ second) = written first ++ written second := by
  rw [written, List.flatMap_append, written, written]

/-- Behind a word, these parts leave the word as it is. -/
def EndsWord (parts : List Part) : Prop :=
  ∀ rest, EndsName rest → EndsName (written parts ++ rest)

namespace EndsWord

theorem nil : EndsWord [] :=
  fun _ ends => ends

theorem mark {c : Char} (other : isNamePart c = false) (later : List Part) :
    EndsWord (.mark c :: later) := by
  rintro rest - d head
  cases head
  exact other

theorem append {first second : List Part} (firstEnds : EndsWord first)
    (secondEnds : EndsWord second) : EndsWord (first ++ second) := by
  intro rest ends
  rw [written_append, List.append_assoc]
  exact firstEnds _ (secondEnds _ ends)

end EndsWord

theorem endsWord_members (path : List Name) : EndsWord (path.flatMap memberParts) := by
  cases path with
  | nil => exact .nil
  | cons name path => exact .mark (by decide) _

theorem endsWord_angled (isNil : Bool) (inside : List Part) : EndsWord (angled isNil inside) := by
  cases isNil with
  | false => exact .mark (by decide) _
  | true => exact .nil

theorem Slot.separator_cases {group : Group} (slot : Slot group) :
    slot.separator = [';'] ∨ slot.separator = [','] ∨ slot.separator = [',', ' '] := by
  cases slot with
  | property key isReadonly isOptional separator => cases separator <;> simp [Slot.separator]
  | _ => simp [Slot.separator]

theorem Slot.endsWord_separator {group : Group} (slot : Slot group) (parts : List Part) :
    EndsWord (marks slot.separator ++ parts) := by
  rcases slot.separator_cases with same | same | same <;> rw [same] <;>
    exact .mark (by decide) _

/-! ## Reading -/

theorem splitQuoted_content {mark : QuoteMark} (content : List (QuotedChar mark))
    (behind : List Char) :
    splitQuoted mark.char (content.flatMap QuotedChar.chars ++ mark.char :: behind) =
      (content.flatMap QuotedChar.chars ++ [mark.char], behind) := by
  have closes : mark.char ≠ '\\' := by cases mark <;> decide
  induction content with
  | nil => simp [splitQuoted_cons closes]
  | cons c content induction =>
      cases c with
      | plain c isOther isPlain =>
          simp [QuotedChar.chars, splitQuoted_cons isPlain, isOther, induction]
      | escaped c => simp [QuotedChar.chars, splitQuoted, induction]

section

variable (replace : Name → Name)

def Part.respell (chosen : Role → Bool) : Part → Part
  | .mark c => .mark c
  | .quoted literal => .quoted literal
  | .word role name => .word role (if chosen role then replace name else name)

def respelled (chosen : Role → Bool) (parts : List Part) : List Part :=
  parts.map (.respell replace chosen)

@[simp] theorem respelled_nil (chosen : Role → Bool) : respelled replace chosen [] = [] :=
  rfl

@[simp] theorem respelled_cons (chosen : Role → Bool) (part : Part) (later : List Part) :
    respelled replace chosen (part :: later) =
      part.respell replace chosen :: respelled replace chosen later :=
  List.map_cons

@[simp] theorem respelled_append (chosen : Role → Bool) (first second : List Part) :
    respelled replace chosen (first ++ second) =
      respelled replace chosen first ++ respelled replace chosen second :=
  List.map_append

variable (spell : List Char → List Char)

/-- From one context to another, a scan that spells names in another way takes the written words
for what their roles tell. -/
def Reads (context : Context) (parts : List Part) (later : Context) : Prop :=
  ∀ rest, EndsName rest → renamed spell context (written parts ++ rest) =
    written (respelled replace Role.isSeen parts) ++ renamed spell later rest

end

namespace Reads

variable {replace : Name → Name} {spell : List Char → List Char} {context later : Context}
  {parts : List Part}

theorem nil (context : Context) : Reads replace spell context [] context :=
  fun _ _ => rfl

theorem append {middle : Context} {front : List Part}
    (first : Reads replace spell context front middle) (ends : EndsWord parts)
    (second : Reads replace spell middle parts later) :
    Reads replace spell context (front ++ parts) later := by
  intro rest restEnds
  rw [written_append, List.append_assoc, first _ (ends rest restEnds), second rest restEnds,
    respelled_append, written_append, List.append_assoc]

theorem mark {c : Char} (marks : isMark c = true)
    (behind : Reads replace spell (context.afterMark c) parts later) :
    Reads replace spell context (.mark c :: parts) later := by
  intro rest ends
  have here := renamed_mark spell context marks (written parts ++ rest)
  rw [behind rest ends] at here
  exact here

theorem marks {chars : List Char} (areMarks : chars.all isMark = true)
    (behind : Reads replace spell (chars.foldl Context.afterMark context) parts later) :
    Reads replace spell context (TypeSyntax.marks chars ++ parts) later := by
  induction chars generalizing context with
  | nil => exact behind
  | cons c chars induction =>
      rw [List.all_cons, Bool.and_eq_true] at areMarks
      exact mark areMarks.1 (induction areMarks.2 behind)

/-- Behind a quote the scan goes on like behind any other character that signals nothing. -/
theorem quoted (literal : Literal)
    (behind : Reads replace spell (context.after literal.mark.char) parts later) :
    Reads replace spell context (.quoted literal :: parts) later := by
  intro rest ends
  have quotes : isQuote literal.mark.char = true := by cases literal.mark <;> decide
  have plain : literal.mark.char ≠ backquote := by cases literal.mark <;> decide
  have here := renamed_quoted spell context quotes plain
    (literal.content.flatMap QuotedChar.chars ++ literal.mark.char :: (written parts ++ rest))
  rw [splitQuoted_content, behind rest ends] at here
  simpa [written_cons, respelled, Part.respell, Part.chars, Literal.chars] using here

theorem word (spells : ∀ name, (replace name).chars = spell name.chars) {role : Role}
    (name : Name) (ends : EndsWord parts)
    (sees : ∀ rest, (context.isQualified ||
      context.isKeyPosition && startsAscription (written parts ++ rest)) = !role.isSeen)
    (behind : Reads replace spell (context.after (name.chars.getLastD '_')) parts later) :
    Reads replace spell context (.word role name :: parts) later := by
  intro rest restEnds
  have here := renamed_name spell context name.isName (ends rest restEnds)
  rw [behind rest restEnds, namePiece, sees rest] at here
  rw [written_cons, List.append_assoc, Part.chars, here, respelled_cons, written_cons,
    List.append_assoc]
  cases seen : role.isSeen <;>
    simp [seen, Piece.rename, Piece.chars, Part.respell, Part.chars, spells]

/-- What came last is forgotten unless it makes a difference. -/
theorem settle {c : Char} {brackets : List Char}
    (reads : Reads replace spell context parts ⟨some c, brackets⟩) (silent : c ∉ Context.signals) :
    Reads replace spell context parts ⟨none, brackets⟩ := by
  intro rest ends
  have alike : Context.Alike ⟨some c, brackets⟩ ⟨none, brackets⟩ := by
    refine ⟨rfl, fun d signal => ⟨fun same => ?_, nofun⟩⟩
    cases same
    exact absurd signal silent
  rw [reads rest ends, renamed, renamed, piecesFrom_eq_of_alike alike]

theorem enclosed {opening closing : Char} (opens : opening ∈ Context.openings)
    (closes : closing ∈ Context.closings) {previous : Option Char}
    (noArrow : previous ≠ some '=')
    (inside : Reads replace spell ⟨some opening, opening :: context.brackets⟩ parts
      ⟨previous, opening :: context.brackets⟩) :
    Reads replace spell context (.mark opening :: (parts ++ [.mark closing]))
      ⟨none, context.brackets⟩ := by
  have openingMarks : ∀ c ∈ Context.openings, isMark c = true :=
    List.all_eq_true.mp (by decide)
  have closingMarks : ∀ c ∈ Context.closings, isMark c = true :=
    List.all_eq_true.mp (by decide)
  have closingEnds : ∀ c ∈ Context.closings, isNamePart c = false :=
    List.all_iff_forall_prop.mp (by decide)
  have closingSilent : ∀ c ∈ Context.closings, c ∉ Context.signals :=
    List.all_iff_forall_prop.mp (by decide)
  have close : Reads replace spell ⟨previous, opening :: context.brackets⟩ [.mark closing]
      ⟨some closing, context.brackets⟩ := by
    refine mark (closingMarks _ closes) ?_
    rw [Context.afterMark_closing closes noArrow]
    exact nil _
  refine mark (openingMarks _ opens) ?_
  rw [Context.afterMark_opening opens]
  exact (inside.append (.mark (closingEnds _ closes) []) close).settle (closingSilent _ closes)

theorem ascription (isOptional : Bool)
    (behind : Reads replace spell ⟨some ':', context.brackets⟩ parts later) :
    Reads replace spell context (TypeSyntax.ascription isOptional ++ parts) later := by
  have colon : ∀ context : Context, Context.afterMark (context.afterMark ':') ' ' =
      ⟨some ':', context.brackets⟩ := by
    intro context
    rw [Context.afterMark_blank, Context.afterMark_plain (by decide) (by decide)]
    rfl
  cases isOptional with
  | false =>
      refine mark (by decide) (mark (by decide) ?_)
      rw [colon]
      exact behind
  | true =>
      refine mark (by decide) (mark (by decide) (mark (by decide) ?_))
      rw [colon, Context.afterMark_plain (by decide) (by decide)]
      exact behind

theorem dots (behind : Reads replace spell ⟨some '.', context.brackets⟩ parts later) :
    Reads replace spell context (TypeSyntax.marks ['.', '.', '.'] ++ parts) later := by
  refine marks (by decide) ?_
  have dot : ∀ context : Context, context.afterMark '.' = context.after '.' :=
    fun _ => Context.afterMark_plain (by decide) (by decide)
  rw [List.foldl_cons, List.foldl_cons, List.foldl_cons, List.foldl_nil, dot, dot, dot]
  exact behind

theorem settledWord (spells : ∀ name, (replace name).chars = spell name.chars) {role : Role}
    (name : Name) (ends : EndsWord parts)
    (sees : ∀ rest, (context.isQualified ||
      context.isKeyPosition && startsAscription (written parts ++ rest)) = !role.isSeen)
    (behind : Reads replace spell ⟨none, context.brackets⟩ parts later) :
    Reads replace spell context (.word role name :: parts) later := by
  have signalsEnd : ∀ c ∈ Context.signals, isNamePart c = false :=
    List.all_iff_forall_prop.mp (by decide)
  have silent : name.chars.getLastD '_' ∉ Context.signals := fun signal =>
    ne_of_isNamePart name.isName.isNamePart_getLastD (signalsEnd _ signal) rfl
  have settled : Reads replace spell (context.after (name.chars.getLastD '_')) []
      ⟨none, context.brackets⟩ := settle (nil _) silent
  exact word spells name ends sees (settled.append ends behind)

end Reads

/-! ## Types

A type is read alike wherever the context expects no key. -/

def ReadsType (replace : Name → Name) (spell : List Char → List Char)
    (type : Bool → List Part) : Prop :=
  ∀ context : Context, context.isKeyPosition = false →
    Reads replace spell context (type context.isQualified) ⟨none, context.brackets⟩

/-- Where the next slot of a group begins. -/
structure AtSlot (opening : Char) (context : Context) : Prop where
  inside : context.brackets.head? = some opening
  previous : ∃ c ∈ [opening, ',', ';'], context.previous = some c

def Group.opening : Group → Char
  | .arguments => '<'
  | .elements => '['
  | .properties => '\x7b'
  | .parameters => '('

namespace AtSlot

variable {context : Context} {group : Group}

theorem previous_ne (atSlot : AtSlot group.opening context) {c : Char}
    (other : c ∉ [group.opening, ',', ';']) : context.previous ≠ some c := by
  rcases atSlot.previous with ⟨d, member, same⟩
  rw [same]
  rintro ⟨⟩
  exact other member

theorem isQualified (atSlot : AtSlot group.opening context) : context.isQualified = false := by
  have noDot := atSlot.previous_ne (c := '.') (by cases group <;> decide)
  simp [Context.isQualified, noDot]

theorem isKeyPosition (atSlot : AtSlot group.opening context) :
    context.isKeyPosition = decide (group = .properties) := by
  rcases atSlot.previous with ⟨d, member, same⟩
  rw [Context.isKeyPosition, atSlot.inside, same]
  cases group with
  | properties =>
      have keys : ∀ d ∈ ['\x7b', ',', ';'], [some '\x7b', some ',', some ';'].contains (some d) :=
        List.all_eq_true.mp (by decide)
      rw [keys d member]
      decide
  | _ => simp [Group.opening]

end AtSlot

section

variable {replace : Name → Name} {spell : List Char → List Char} {type : Bool → List Part}

namespace ReadsType

theorem unqualified (reads : ReadsType replace spell type) {context : Context}
    (unqualified : context.isQualified = false) (free : context.isKeyPosition = false) :
    Reads replace spell context (type false) ⟨none, context.brackets⟩ := by
  have here := reads context free
  rwa [unqualified] at here

theorem operand (reads : ReadsType replace spell type) (encloses : Bool) :
    ReadsType replace spell (operand encloses type) := by
  intro context free
  cases encloses with
  | false => exact reads context free
  | true =>
      have inside : Context.isKeyPosition ⟨some '(', '(' :: context.brackets⟩ = false := by
        simp [Context.isKeyPosition]
      exact .enclosed (by decide) (by decide) (by simp) (reads.unqualified rfl inside)

end ReadsType

theorem startsAscription_word (name : Name) (rest : List Char) :
    startsAscription (' ' :: (name.chars ++ rest)) = false := by
  rcases name with ⟨chars, isName⟩
  cases chars with
  | nil => exact isName.elim
  | cons c chars =>
      have part := isNamePart_of_isNameStart isName.1
      have trimmed : Text.trimStart (' ' :: (c :: chars ++ rest)) = c :: (chars ++ rest) := by
        simp [Text.trimStart, (by decide : Text.isBlank ' ' = true), isBlank_of_isNamePart part]
      rw [startsAscription, trimmed]
      split
      · next same => cases same; exact absurd part (by decide)
      · next same => cases same; exact absurd part (by decide)
      · rfl

theorem startsAscription_ascription (isOptional : Bool) (parts : List Part) (rest : List Char) :
    startsAscription (written (ascription isOptional ++ parts) ++ rest) = true := by
  have colon : ∀ rest, Text.nextVisible? (':' :: rest) = some ':' := by
    simp [Text.nextVisible?, Text.trimStart, (by decide : Text.isBlank ':' = false)]
  rw [startsAscription_iff]
  cases isOptional with
  | false => exact .inl (colon _)
  | true =>
      have trimmed : Text.trimStart (written (ascription true ++ parts) ++ rest) =
          '?' :: ':' :: ' ' :: (written parts ++ rest) := by
        simp [ascription, marks, written, Part.chars, Text.trimStart,
          (by decide : Text.isBlank '?' = false)]
      exact .inr ⟨_, trimmed, colon _⟩

theorem endsWord_ascription (isOptional : Bool) (parts : List Part) :
    EndsWord (ascription isOptional ++ parts) := by
  cases isOptional <;> exact .mark (by decide) _

theorem ReadsType.annotated (reads : ReadsType replace spell type) (isOptional : Bool)
    (context : Context) :
    Reads replace spell context (ascription isOptional ++ type false) ⟨none, context.brackets⟩ :=
  .ascription isOptional (reads.unqualified rfl (by simp [Context.isKeyPosition]))

section

variable (spells : ∀ name, (replace name).chars = spell name.chars)

include spells

/-- Behind the word `readonly` a key is read as a type. -/
theorem ReadsType.readonlyKey (reads : ReadsType replace spell type) (key : Name)
    (isOptional : Bool) (context : Context) :
    Reads replace spell (context.after 'y')
      (.mark ' ' :: .word (.key true) key :: (ascription isOptional ++ type false))
      ⟨none, context.brackets⟩ := by
  refine .mark (by decide) ?_
  rw [Context.afterMark_blank]
  refine .word spells key (endsWord_ascription isOptional _) (fun rest => ?_)
    (reads.annotated isOptional _)
  simp [Context.isQualified, Context.isKeyPosition, Context.after, Role.isSeen]

theorem Slot.reads {group : Group} (slot : Slot group) (isCompound : Bool)
    (reads : ReadsType replace spell type) {context : Context}
    (atSlot : AtSlot group.opening context) :
    Reads replace spell context (slot.parts isCompound type) ⟨none, context.brackets⟩ := by
  have ends : ∀ isOptional, EndsWord (ascription isOptional ++ type false) :=
    fun isOptional => endsWord_ascription isOptional _
  have unqualified := atSlot.isQualified
  have keyed := atSlot.isKeyPosition
  cases slot with
  | argument => exact reads.unqualified unqualified keyed
  | element form =>
      cases form with
      | plain => exact reads.unqualified unqualified keyed
      | optional =>
          have question : Reads replace spell ⟨none, context.brackets⟩ [.mark '?']
              ⟨some '?', context.brackets⟩ := by
            refine .mark (by decide) ?_
            rw [Context.afterMark_plain (by decide) (by decide)]
            exact .nil _
          have operand := (reads.operand isCompound).unqualified unqualified keyed
          exact (operand.append (.mark (by decide) []) question).settle (by decide)
      | spread =>
          exact .dots (reads ⟨some '.', context.brackets⟩ (by simp [Context.isKeyPosition]))
  | property key isReadonly isOptional separator =>
      have blank : context.afterMark ' ' = context := Context.afterMark_blank
      cases isReadonly with
      | false =>
          refine .mark (by decide) ?_
          rw [blank]
          refine .word spells key (ends isOptional) (fun rest => ?_) (reads.annotated isOptional _)
          rw [unqualified, keyed, startsAscription_ascription]
          rfl
      | true =>
          refine .mark (by decide) ?_
          rw [blank]
          refine .word spells readonlyName (.mark (by decide) _) (fun rest => ?_)
            (reads.readonlyKey spells key isOptional context)
          have noKey := startsAscription_word key
            (written (ascription isOptional ++ type false) ++ rest)
          rw [unqualified, written_cons, written_cons, List.append_assoc, List.append_assoc,
            Part.chars, Part.chars, List.singleton_append, noKey, Bool.and_false]
          rfl
  | parameter name form =>
      cases form with
      | plain =>
          refine .word spells name (ends false) (fun rest => ?_) (reads.annotated false _)
          rw [unqualified, keyed]
          rfl
      | optional =>
          refine .word spells name (ends true) (fun rest => ?_) (reads.annotated true _)
          rw [unqualified, keyed]
          rfl
      | rest =>
          exact .dots (.word spells name (ends false) (fun _ => rfl) (reads.annotated false _))

omit spells in
theorem Slot.reads_separator {group : Group} (slot : Slot group) (brackets : List Char) :
    ∃ c ∈ [',', ';'], ∀ {parts later}, Reads replace spell ⟨some c, brackets⟩ parts later →
      Reads replace spell ⟨none, brackets⟩ (marks slot.separator ++ parts) later := by
  have comma : Context.afterMark ⟨none, brackets⟩ ',' = ⟨some ',', brackets⟩ :=
    Context.afterMark_plain (by decide) (by decide)
  have semicolon : Context.afterMark ⟨none, brackets⟩ ';' = ⟨some ';', brackets⟩ :=
    Context.afterMark_plain (by decide) (by decide)
  rcases slot.separator_cases with same | same | same
  · refine ⟨';', by decide, fun behind => ?_⟩
    rw [same]
    refine .marks (by decide) ?_
    rwa [List.foldl_cons, semicolon]
  · refine ⟨',', by decide, fun behind => ?_⟩
    rw [same]
    refine .marks (by decide) ?_
    rwa [List.foldl_cons, comma]
  · refine ⟨',', by decide, fun behind => ?_⟩
    rw [same]
    refine .marks (by decide) ?_
    rwa [List.foldl_cons, List.foldl_cons, comma, Context.afterMark_blank]

theorem reads_members {brackets : List Char} (path : List Name) :
    Reads replace spell ⟨none, brackets⟩ (path.flatMap memberParts) ⟨none, brackets⟩ := by
  induction path with
  | nil => exact .nil _
  | cons name path induction =>
      have member : Reads replace spell ⟨none, brackets⟩ (memberParts name) ⟨none, brackets⟩ := by
        refine .mark (by decide) ?_
        rw [Context.afterMark_plain (by decide) (by decide)]
        exact .settledWord spells name .nil (fun _ => rfl) (.nil _)
      exact member.append (endsWord_members path) induction

mutual
/-- A written type is read as its roles tell, wherever no key is expected. -/
theorem TypeTerm.reads : (type : TypeTerm) → ReadsType replace spell type.parts
  | .reference head path arguments => by
      intro context free
      have argumentsRead : Reads replace spell ⟨none, context.brackets⟩
          (angled arguments.isNil arguments.parts) ⟨none, context.brackets⟩ := by
        rw [angled]
        split
        · exact .nil _
        · rcases arguments.reads ⟨some '<', '<' :: context.brackets⟩ ⟨rfl, '<', by decide, rfl⟩
            with ⟨previous, noArrow, inside⟩
          exact .enclosed (by decide) (by decide) noArrow inside
      have argumentsEnd := endsWord_angled arguments.isNil arguments.parts
      refine .settledWord spells head ((endsWord_members path).append argumentsEnd) (fun rest => ?_)
        ((reads_members spells path).append argumentsEnd argumentsRead)
      rw [free]
      cases path <;> simp [Role.isSeen]
  | .literal literal => by
      intro context free
      have silent : literal.mark.char ∉ Context.signals := by cases literal.mark <;> decide
      have reads : Reads replace spell context [.quoted literal]
          (context.after literal.mark.char) := .quoted literal (.nil _)
      exact reads.settle silent
  | .array element => by
      intro context free
      have suffix : Reads replace spell ⟨none, context.brackets⟩ (marks ['[', ']'])
          ⟨none, context.brackets⟩ :=
        .enclosed (by decide) (by decide) (by decide) (.nil _)
      exact ((element.reads.operand element.isCompound) context free).append
        (.mark (by decide) _) suffix
  | .tuple elements => by
      intro context free
      rcases elements.reads ⟨some '[', '[' :: context.brackets⟩ ⟨rfl, '[', by decide, rfl⟩
        with ⟨previous, noArrow, inside⟩
      exact .enclosed (by decide) (by decide) noArrow inside
  | .object properties => by
      intro context free
      rcases properties.reads ⟨some '\x7b', '\x7b' :: context.brackets⟩
        ⟨rfl, '\x7b', by decide, rfl⟩ with ⟨previous, noArrow, inside⟩
      have blank : Reads replace spell ⟨previous, '\x7b' :: context.brackets⟩ [.mark ' ']
          ⟨previous, '\x7b' :: context.brackets⟩ := by
        refine .mark (by decide) ?_
        rw [Context.afterMark_blank]
        exact .nil _
      have whole := @Reads.enclosed _ _ context _ _ '\x7d' (by decide) (by decide) _
        noArrow (inside.append (.mark (by decide) []) blank)
      rwa [List.append_assoc] at whole
  | .function parameters result => by
      intro context free
      rcases parameters.reads ⟨some '(', '(' :: context.brackets⟩ ⟨rfl, '(', by decide, rfl⟩
        with ⟨previous, noArrow, inside⟩
      have head := @Reads.enclosed _ _ context _ _ ')' (by decide) (by decide) _
        noArrow inside
      have arrow : Reads replace spell ⟨none, context.brackets⟩
          (marks [' ', '=', '>', ' '] ++ result.parts false) ⟨none, context.brackets⟩ := by
        refine .marks (by decide) ?_
        simp only [List.foldl_cons, List.foldl_nil, Context.afterMark_blank]
        have equals : Context.afterMark ⟨none, context.brackets⟩ '=' =
            ⟨some '=', context.brackets⟩ := Context.afterMark_plain (by decide) (by decide)
        rw [equals, Context.afterMark_arrow rfl]
        exact result.reads.unqualified rfl (by simp [Context.isKeyPosition, Context.after])
      have whole := head.append (.mark (by decide) _) arrow
      rw [List.cons_append, List.append_assoc] at whole
      exact whole
  | .union left right => by
      intro context free
      have mark : Reads replace spell ⟨none, context.brackets⟩
          (marks [' ', '|', ' '] ++ operand right.isCompound right.parts false)
          ⟨none, context.brackets⟩ := by
        refine .marks (by decide) ?_
        simp only [List.foldl_cons, List.foldl_nil, Context.afterMark_blank]
        rw [Context.afterMark_plain (by decide) (by decide)]
        exact (right.reads.operand right.isCompound).unqualified rfl
          (by simp [Context.isKeyPosition, Context.after])
      exact ((left.reads.operand left.isFunction) context free).append (.mark (by decide) _) mark

theorem Items.reads {group : Group} : (items : Items group) → (context : Context) →
    AtSlot group.opening context → ∃ previous, previous ≠ some '=' ∧
      Reads replace spell context items.parts ⟨previous, context.brackets⟩
  | .nil, context, atSlot =>
      ⟨context.previous, atSlot.previous_ne (by cases group <;> decide), .nil _⟩
  | .cons slot type later, context, atSlot => by
      have first := slot.reads spells type.isCompound type.reads atSlot
      cases isLast : later.isNil with
      | true =>
          refine ⟨none, by decide, ?_⟩
          rw [Items.parts, isLast, if_pos rfl, List.append_nil]
          exact first
      | false =>
          rcases slot.reads_separator context.brackets with ⟨c, separates, separated⟩
          rcases later.reads ⟨some c, context.brackets⟩
            ⟨atSlot.inside, c, List.mem_cons_of_mem _ separates, rfl⟩ with
            ⟨previous, noArrow, laterReads⟩
          refine ⟨previous, noArrow, ?_⟩
          rw [Items.parts, isLast, if_neg Bool.false_ne_true]
          exact first.append (slot.endsWord_separator _) (separated laterReads)
end

end

end

end TypeSyntax

end MemberStubs
