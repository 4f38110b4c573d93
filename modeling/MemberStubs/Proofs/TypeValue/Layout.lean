import MemberStubs.Proofs.TypeSyntax.Reading
import MemberStubs.Proofs.TypeText.UnionMembers
import MemberStubs.Proofs.TypeValue.Tree

/-! How the text of a type looks from outside. Brackets go in pairs, unless a literal has one without
its counterpart, and no operand has a union mark at its top level, unless a literal has. -/

namespace MemberStubs.TypeValue

open TypeText
open TypeSyntax (Literal Name Part angled marks written written_append written_cons)

/-! ## Words -/

theorem isInert_of_isNamePart {c : Char} (part : isNamePart c = true) : isInert c = true :=
  isInert_of part (by decide)

theorem isInert_of_isNumeralPart {c : Char} (part : isNumeralPart c = true) : isInert c = true :=
  isInert_of part (by decide)

theorem name_inert (name : Name) : ∀ c ∈ name.chars, isInert c = true :=
  fun c member => isInert_of_isNamePart (name.isName.isNamePart c member)

theorem qualified_inert (head : TypeName) (path : List Name) :
    ∀ c ∈ qualified head path, isInert c = true := by
  refine List.forall_mem_append.mpr ⟨name_inert head.name, fun c member => ?_⟩
  rcases List.mem_flatMap.mp member with ⟨name, _, inside⟩
  rcases List.mem_cons.mp inside with rfl | inside
  · decide
  · exact name_inert name c inside

theorem Keyword.inert (keyword : Keyword) : ∀ c ∈ keyword.chars, isInert c = true :=
  List.all_eq_true.mp (by cases keyword <;> decide)

theorem Numeral.inert (numeral : Numeral) : ∀ c ∈ numeral.chars, isInert c = true :=
  fun c member => isInert_of_isNumeralPart (numeral.looksNumeric.parts c member)

theorem written_marks (chars : List Char) : written (marks chars) = chars := by
  induction chars with
  | nil => rfl
  | cons c rest induction => exact congrArg (c :: ·) induction

theorem written_enclosed (opening closing : Char) (inside : List Part) :
    written (.mark opening :: (inside ++ [.mark closing])) =
      opening :: (written inside ++ [closing]) := by
  rw [written_cons, written_append]
  rfl

/-! ## Steady texts -/

def literal? : Part → Option Literal
  | .quoted literal => some literal
  | _ => none

/-- Brackets in the literals go in pairs. -/
def Closed (parts : List Part) : Prop :=
  ∀ literal ∈ parts.filterMap literal?, Steady literal.chars

instance (parts : List Part) : Decidable (Closed parts) :=
  inferInstanceAs (Decidable (∀ literal ∈ parts.filterMap literal?, Steady literal.chars))

namespace Closed

theorem of_subset {parts whole : List Part} (closed : Closed whole)
    (subset : ∀ part ∈ parts, part ∈ whole) : Closed parts := by
  intro literal member
  rcases List.mem_filterMap.mp member with ⟨part, held, same⟩
  exact closed literal (List.mem_filterMap.mpr ⟨part, subset part held, same⟩)

variable {first second : List Part}

theorem left (closed : Closed (first ++ second)) : Closed first :=
  closed.of_subset fun _ => List.mem_append_left _

theorem right (closed : Closed (first ++ second)) : Closed second :=
  closed.of_subset fun _ => List.mem_append_right _

theorem inside {inside : List Part} {opening closing : Char}
    (closed : Closed (.mark opening :: (inside ++ [.mark closing]))) : Closed inside :=
  closed.of_subset fun _ member => List.mem_cons_of_mem _ (List.mem_append_left _ member)

end Closed

/-- Parts whose text is steady if those of their literals are. -/
def Settled (parts : List Part) : Prop :=
  Closed parts → Steady (written parts)

namespace Settled

theorem nil : Settled [] :=
  fun _ => .nil

theorem append {first second : List Part} (settled : Settled first) (settled' : Settled second) :
    Settled (first ++ second) := by
  intro closed
  rw [written_append]
  exact (settled closed.left).append (settled' closed.right)

theorem marks {chars : List Char} (steady : Steady chars) : Settled (marks chars) := by
  intro _
  rwa [written_marks]

theorem quoted (literal : Literal) : Settled [.quoted literal] := by
  intro closed
  have steady := closed literal (List.mem_singleton_self _)
  rwa [written, List.flatMap_singleton]

theorem enclosed {inside : List Part} (settled : Settled inside) {opening closing : Char}
    (pair : (opening, closing) ∈ bracketPairs) :
    Settled (.mark opening :: (inside ++ [.mark closing])) := by
  intro closed
  rw [written_enclosed]
  exact (isPair_of_mem pair).steady (settled closed.inside)

theorem unsplit {inside : List Part} (settled : Settled inside) {opening closing : Char}
    (pair : (opening, closing) ∈ bracketPairs)
    (closed : Closed (.mark opening :: (inside ++ [.mark closing]))) :
    Unsplit (written (.mark opening :: (inside ++ [.mark closing]))) := by
  rw [written_enclosed]
  exact (isPair_of_mem pair).unsplit (settled closed.inside)

theorem angled {inside : List Part} (settled : Settled inside) (isNil : Bool) :
    Settled (angled isNil inside) := by
  cases isNil with
  | true => exact nil
  | false => exact settled.enclosed (by decide)

theorem unsplit_angled {inside : List Part} (settled : Settled inside) (isNil : Bool)
    (closed : Closed (TypeSyntax.angled isNil inside)) :
    Unsplit (written (TypeSyntax.angled isNil inside)) := by
  cases isNil with
  | true => exact nofun
  | false => exact settled.unsplit (by decide) closed

end Settled

theorem settled_name (name : Name) : Settled (marks name.chars) :=
  .marks (.of_inert (name_inert name))

theorem settled_colon (isOptional : Bool) : Settled (colon isOptional) := by
  cases isOptional <;> exact .marks (by decide)

theorem settled_readonlyMark (isReadonly : Bool) : Settled (readonlyMark isReadonly) := by
  cases isReadonly <;> exact .marks (by decide)

theorem Key.settled (key : Key) : Settled key.parts := by
  cases key with
  | plain name => exact settled_name name
  | quoted literal => exact .quoted literal
  | numeral magnitude =>
      exact .marks (.of_inert fun c member =>
        isInert_of_isNumeralPart (magnitude.looksNumeric.parts c member))
  | computed head path =>
      exact .marks ((isPair_of_mem (by decide)).steady (.of_inert (qualified_inert head path)))

theorem Slot.settled_front (slot : Slot group) : Settled slot.front := by
  cases slot with
  | argument => exact .nil
  | element label form =>
      refine (Settled.append ?_ ?_ : Settled (_ ++ _))
      · cases form with
        | plain => exact .nil
        | optional => exact .nil
        | spread => exact .marks (by decide)
      · cases label with
        | none => exact .nil
        | some name => exact (settled_name name).append (settled_colon _)
  | property isReadonly key isOptional =>
      exact ((settled_readonlyMark isReadonly).append key.settled).append (settled_colon isOptional)
  | index isReadonly name keyType =>
      have inside := ((settled_name name).append (settled_colon false)).append
        (.marks (.of_inert keyType.inert))
      exact ((settled_readonlyMark isReadonly).append (inside.enclosed (by decide))).append
        (settled_colon false)
  | bound => exact .marks (by decide)
  | fallback => exact .marks (by decide)
  | parameter name form =>
      cases form with
      | plain => exact (settled_name name).append (settled_colon false)
      | optional => exact (settled_name name).append (settled_colon true)
      | rest =>
          exact (Settled.append (.marks (by decide)) (settled_name name)).append (settled_colon false)

theorem Slot.settled_behind (slot : Slot group) : Settled slot.behind := by
  unfold behind
  split
  · exact Settled.marks (by decide : Steady ['?'])
  · exact .nil

theorem MethodHead.settled (head : MethodHead) : Settled head.parts := by
  cases head with
  | named key isOptional =>
      refine key.settled.append (.marks ?_)
      cases isOptional <;> decide
  | call => exact .nil
  | construct => exact .marks (by decide)

theorem FunctionForm.steady (form : FunctionForm) : Steady form.word ∧ Unsplit form.word := by
  cases form <;> decide

theorem settled_separated {later : List Part} (settled : Settled later) (group : Group)
    (isLast : Bool) : Settled (separated group isLast later) := by
  have separator : Steady group.separator := by cases group <;> decide
  cases isLast with
  | true => exact .nil
  | false => exact Settled.append (.marks separator) settled

theorem settled_padded {inside : List Part} (settled : Settled inside) (isNil : Bool) :
    Settled (padded isNil inside) := by
  cases isNil with
  | true => exact .nil
  | false =>
      have blank : Settled (marks [' ']) := .marks (by decide)
      exact blank.append (settled.append blank)

mutual
theorem Operand.settled : (operand : Operand) → Settled operand.parts
  | .keyword keyword => .marks (.of_inert keyword.inert)
  | .quoted literal => .quoted literal
  | .numeral numeral => .marks (.of_inert numeral.inert)
  | .reference head path arguments =>
      Settled.append (.marks (.of_inert (qualified_inert head path))) (arguments.settled.angled _)
  | .array element => element.settled.append (.marks (by decide))
  | .tuple elements => elements.settled.enclosed (by decide)
  | .object members => (settled_padded members.settled _).enclosed (by decide)
  | .enclosed inside => inside.settled.enclosed (by decide)

theorem TypeTree.settled : (type : TypeTree) → Settled type.parts
  | .single operand => operand.settled
  | .union first second others =>
      first.settled.append (Settled.append (.marks (by decide)) (second.settled.append others.settled))
  | .function form signature =>
      Settled.append (.marks form.steady.1) (signature.settled (by decide))

theorem Operands.settled : (operands : Operands) → Settled operands.parts
  | .nil => .nil
  | .cons operand later =>
      Settled.append (.marks (by decide)) (operand.settled.append later.settled)

theorem Signature.settled {arrow : List Char} (steady : Steady arrow) :
    (signature : Signature) → Settled (signature.parts arrow)
  | .signature typeParameters parameters result =>
      (typeParameters.settled.angled _).append ((parameters.settled.enclosed (by decide)).append
        (Settled.append (.marks steady) result.settled))

theorem Items.settled : (items : Items group) → Settled items.parts
  | .nil => .nil
  | .cons slot type later =>
      ((slot.settled_front.append type.settled).append slot.settled_behind).append
        (settled_separated later.settled _ _)
  | .method head signature later =>
      (head.settled.append (signature.settled (by decide))).append
        (settled_separated later.settled _ _)
  | .typeParameter name clauses later =>
      ((settled_name name).append clauses.settled).append (settled_separated later.settled _ _)
end

/-! ## The first and the last character -/

def isEnd (c : Char) : Bool :=
  !Text.isBlank c && c ≠ '['

/-- A text with a last character, which is neither a blank nor an opening bracket. -/
def Ended (chars : List Char) : Prop :=
  ∃ front c, chars = front ++ [c] ∧ isEnd c = true

theorem Ended.append {second : List Char} (ended : Ended second) (first : List Char) :
    Ended (first ++ second) := by
  rcases ended with ⟨front, c, rfl, isEnd⟩
  exact ⟨first ++ front, c, (List.append_assoc ..).symm, isEnd⟩

theorem Ended.of_forall {chars : List Char} (notEmpty : chars ≠ [])
    (all : ∀ c ∈ chars, isEnd c = true) : Ended chars :=
  ⟨chars.dropLast, chars.getLast notEmpty, (List.dropLast_append_getLast notEmpty).symm,
    all _ (List.getLast_mem notEmpty)⟩

theorem isBlank_of_isNumeralPart {c : Char} (part : isNumeralPart c = true) :
    Text.isBlank c = false := by
  have noneIsPart : ∀ code ∈ blankCodes, isNumeralPart (Char.ofNat code) = false := by decide
  cases blank : Text.isBlank c with
  | false => rfl
  | true =>
      have here := noneIsPart c.toNat (toNat_mem_blankCodes blank)
      rw [Char.ofNat_toNat, part] at here
      cases here

theorem isEnd_of {c : Char} (visible : Text.isBlank c = false) {test : Char → Bool}
    (holds : test c = true) (other : test '[' = false) : isEnd c = true := by
  have notOpening : c ≠ '[' := by
    rintro rfl
    rw [holds] at other
    cases other
  simp [isEnd, visible, notOpening]

theorem name_ended (name : Name) : Ended name.chars :=
  .of_forall name.isName.ne_nil fun c member =>
    have part := name.isName.isNamePart c member
    isEnd_of (isBlank_of_isNamePart part) part (by decide)

theorem qualified_ended (head : TypeName) (path : List Name) : Ended (qualified head path) := by
  rcases List.eq_nil_or_concat path with rfl | ⟨path, name, rfl⟩
  · rw [qualified, List.flatMap_nil, List.append_nil]
    exact name_ended head.name
  · rw [qualified, List.concat_eq_append, List.flatMap_append, List.flatMap_singleton]
    exact (((name_ended name).append ['.']).append _).append _

theorem literal_ended (literal : Literal) : Ended literal.chars :=
  ⟨literal.mark.char :: literal.content.flatMap TypeSyntax.QuotedChar.chars, literal.mark.char, rfl,
    by cases literal.mark <;> decide⟩

theorem Numeral.ended (numeral : Numeral) : Ended numeral.chars := by
  rcases numeral.looksNumeric with ⟨parts, c, rest, split, _⟩
  refine .of_forall (split ▸ List.cons_ne_nil c rest) fun c member => ?_
  exact isEnd_of (isBlank_of_isNumeralPart (parts c member)) (parts c member) (by decide)

theorem ended_mark {c : Char} (isEnd : isEnd c = true) (front : List Part) :
    Ended (written (front ++ [.mark c])) :=
  ⟨written front, c, written_append front [.mark c], isEnd⟩

theorem Operand.ended (operand : Operand) : Ended (written operand.parts) := by
  cases operand with
  | keyword keyword =>
      rw [parts, written_marks]
      exact .of_forall (by cases keyword <;> decide)
        (List.all_eq_true.mp (by cases keyword <;> decide))
  | quoted literal =>
      rw [parts, written, List.flatMap_singleton]
      exact literal_ended literal
  | numeral numeral =>
      rw [parts, written_marks]
      exact numeral.ended
  | reference head path arguments =>
      rw [parts, written_append, written_marks]
      cases arguments.isNil with
      | true => exact (List.append_nil _).symm ▸ qualified_ended head path
      | false => exact (ended_mark (by decide) (.mark '<' :: arguments.parts)).append _
  | array element => exact written_append .. ▸ (ended_mark (by decide) [.mark '[']).append _
  | tuple elements => exact ended_mark (by decide) (.mark '[' :: elements.parts)
  | object members => exact ended_mark (by decide) (.mark '\x7b' :: padded _ members.parts)
  | enclosed inside => exact ended_mark (by decide) (.mark '(' :: inside.parts)

theorem Operands.ended (front : List Char) (ended : Ended front) :
    (operands : Operands) → Ended (front ++ written operands.parts)
  | .nil => (List.append_nil front).symm ▸ ended
  | .cons operand later => by
      have behind := Operands.ended _ operand.ended later
      rw [parts, written_append, written_append]
      exact (behind.append _).append _

mutual
theorem TypeTree.ended : (type : TypeTree) → Ended (written type.parts)
  | .single operand => operand.ended
  | .union first second others => by
      have behind := Operands.ended _ second.ended others
      rw [TypeTree.parts, written_append, written_append, written_append]
      exact (behind.append _).append _
  | .function form signature => by
      rw [TypeTree.parts, written_append]
      exact (signature.ended _).append _

theorem Signature.ended (arrow : List Char) :
    (signature : Signature) → Ended (written (signature.parts arrow))
  | .signature typeParameters parameters result => by
      rw [Signature.parts, written_append, written_append, written_append]
      exact ((result.ended.append _).append _).append _
end

/-- The elements of a tuple do not end with an opening bracket, if there are any. -/
theorem Items.ended : (elements : Items .elements) → elements.isNil = false →
    Ended (written elements.parts)
  | .cons slot type later, _ => by
      have here : Ended (written (slot.front ++ type.parts ++ slot.behind)) := by
        unfold Slot.behind
        split
        · exact ended_mark (by decide) _
        · rw [List.append_nil, written_append]
          exact type.ended.append _
      rw [parts, written_append]
      cases more : later.isNil with
      | true => exact (List.append_nil _).symm ▸ here
      | false =>
          refine Ended.append ?_ _
          rw [separated, if_neg (by simp), written_append]
          exact (later.ended more).append _

/-! ### Operands -/

theorem visible_of_isNumeralStart {c : Char} (starts : isNumeralStart c = true) :
    Text.isBlank c = false :=
  isBlank_of_isNumeralPart (isNumeralPart_of_isNumeralStart starts)

theorem TypeName.begins (name : TypeName) :
    ∃ c rest, name.chars = c :: rest ∧ isNameStart c = true := by
  rcases name with ⟨⟨_ | ⟨c, rest⟩, isName⟩, _⟩
  · exact isName.elim
  · exact ⟨c, rest, rfl, isName.1⟩

theorem Operand.begins : (operand : Operand) →
    ∃ c rest, written operand.parts = c :: rest ∧ Text.isBlank c = false
  | .keyword word => by
      rw [parts, written_marks]
      cases word <;> exact ⟨_, _, rfl, by decide⟩
  | .quoted literal =>
      ⟨literal.mark.char, _, List.flatMap_singleton .., by cases literal.mark <;> decide⟩
  | .numeral number => by
      rcases number.looksNumeric.begins with ⟨c, rest, split, starts⟩
      exact ⟨c, rest, (written_marks _).trans split, visible_of_isNumeralStart starts⟩
  | .reference head path arguments => by
      rcases head.begins with ⟨c, rest, split, starts⟩
      have whole : written (reference head path arguments).parts = c :: (rest ++
          path.flatMap (fun name => '.' :: name.chars) ++
            written (angled arguments.isNil arguments.parts)) := by
        rw [parts, written_append, written_marks, qualified, split, List.cons_append, List.cons_append]
      exact ⟨c, _, whole, isBlank_of_isNamePart (isNamePart_of_isNameStart starts)⟩
  | .array element => by
      rcases element.begins with ⟨c, rest, split, visible⟩
      exact ⟨c, rest ++ written (marks ['[', ']']), by rw [parts, written_append, split]; rfl, visible⟩
  | .tuple _ => ⟨'[', _, rfl, by decide⟩
  | .object _ => ⟨'\x7b', _, rfl, by decide⟩
  | .enclosed _ => ⟨'(', _, rfl, by decide⟩

/-- The literal that an operand is, or is an array of. -/
def Operand.outerLiteral? : Operand → Option Literal
  | .quoted literal => some literal
  | .array element => element.outerLiteral?
  | _ => none

theorem Operand.unsplit : (operand : Operand) → Closed operand.parts →
    (∀ literal ∈ operand.outerLiteral?, Unsplit literal.chars) → Unsplit (written operand.parts)
  | .keyword word, _, _ => by
      rw [parts, written_marks]
      exact .of_inert word.inert
  | .quoted literal, _, unsplit => by
      rw [parts, written, List.flatMap_singleton]
      exact unsplit literal rfl
  | .numeral number, _, _ => by
      rw [parts, written_marks]
      exact .of_inert number.inert
  | .reference head path arguments, closed, _ => by
      have inert := qualified_inert head path
      rw [parts] at closed
      rw [parts, written_append, written_marks]
      exact (Unsplit.of_inert inert).append (.of_inert inert)
        (arguments.settled.angled _ closed.right)
        (arguments.settled.unsplit_angled _ closed.right)
  | .array element, closed, unsplit => by
      rw [parts] at closed
      rw [parts, written_append]
      exact (element.unsplit closed.left unsplit).append (element.settled closed.left)
        (by decide : Steady "[]".toList) (by decide)
  | .tuple elements, closed, _ => elements.settled.unsplit (by decide) closed
  | .object members, closed, _ => (settled_padded members.settled _).unsplit (by decide) closed
  | .enclosed inside, closed, _ => inside.settled.unsplit (by decide) closed

theorem Operand.undivided (operand : Operand) (closed : Closed operand.parts)
    (unsplit : ∀ literal ∈ operand.outerLiteral?, Unsplit literal.chars) :
    Undivided (written operand.parts) := by
  rcases operand.begins with ⟨c, rest, split, visible⟩
  rcases operand.ended with ⟨front, d, split', isEnd⟩
  refine ⟨operand.settled closed, operand.unsplit closed unsplit, ?_, ?_, ?_⟩
  · exact split ▸ List.cons_ne_nil c rest
  · rintro e head
    rw [split, List.head?_cons, Option.mem_some] at head
    rwa [← head]
  · rintro e last
    rw [split', List.getLast?_concat, Option.mem_some] at last
    rw [← last]
    simpa using (Bool.and_eq_true_iff.mp isEnd).1

end MemberStubs.TypeValue
