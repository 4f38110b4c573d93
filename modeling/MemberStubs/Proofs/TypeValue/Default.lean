import MemberStubs.Proofs.Stub.DefaultValue
import MemberStubs.Proofs.TypeValue.Layout

/-! The default of a type is a value of it, as long as no literal misleads the scan of the type's
text. -/

namespace MemberStubs

namespace TypeValue

open TypeText DefaultValue
open TypeSyntax (Literal Name Part QuoteMark QuotedChar angled marks written written_append)

/-! ## Operands by their texts -/

theorem Keyword.chars_injective {first second : Keyword} (same : first.chars = second.chars) :
    first = second := by
  have all : ∀ first ∈ all, ∀ second ∈ all, first.chars = second.chars → first = second := by decide
  exact all first first.mem_all second second.mem_all same

theorem Keyword.isAlpha (keyword : Keyword) : ∀ c ∈ keyword.chars, c.isAlpha = true :=
  List.all_eq_true.mp (by cases keyword <;> decide)

/-- An operand that is written as a keyword is that keyword. -/
theorem Operand.eq_keyword {operand : Operand} {known : Keyword}
    (same : written operand.parts = known.chars) : operand = .keyword known := by
  have noMark {c : Char} (member : c ∈ written operand.parts) (isMark : c.isAlpha = false) :
      False := by
    rw [known.isAlpha c (same ▸ member)] at isMark
    cases isMark
  cases operand with
  | keyword word =>
      rw [parts, written_marks] at same
      rw [Keyword.chars_injective same]
  | quoted literal =>
      refine (noMark (c := literal.mark.char) ?_ (by cases literal.mark <;> decide)).elim
      exact List.mem_append_left _ (List.mem_cons_self ..)
  | numeral number =>
      rcases number.looksNumeric.begins with ⟨c, rest, split, starts⟩
      have noLetter : "0123456789-.".toList.any Char.isAlpha = false := by decide
      have isMark := List.any_eq_false.mp noLetter c (mem_of_isNumeralStart starts)
      refine (noMark (c := c) ?_ (Bool.eq_false_iff.mpr isMark)).elim
      rw [parts, written_marks, split]
      exact List.mem_cons_self ..
  | reference head path arguments =>
      rw [parts, written_append, written_marks] at same noMark
      cases path with
      | cons name path =>
          exact (noMark (c := '.') (by simp [qualified]) (by decide)).elim
      | nil =>
          cases empty : arguments.isNil with
          | false =>
              refine (noMark (c := '<') (List.mem_append_right _ ?_) (by decide)).elim
              rw [empty]
              exact List.mem_cons_self ..
          | true =>
              rw [empty, qualified, List.flatMap_nil, List.append_nil] at same
              have word : head.chars = known.chars := (List.append_nil _).symm.trans same
              have listed : head.chars ∈ Keyword.all.map Keyword.chars :=
                word ▸ List.mem_map_of_mem known.mem_all
              exact (head.isFree listed).elim
  | array element =>
      refine (noMark (c := '[') ?_ (by decide)).elim
      rw [parts, written_append]
      exact List.mem_append_right _ (List.mem_cons_self ..)
  | tuple elements => exact (noMark (List.mem_cons_self ..) (by decide)).elim
  | object members => exact (noMark (List.mem_cons_self ..) (by decide)).elim
  | enclosed inside => exact (noMark (List.mem_cons_self ..) (by decide)).elim

/-! ## Arrays -/

theorem isArray_cases {chars : List Char} (array : isArray chars = true) :
    (∃ front, chars = front ++ "[]".toList) ∨
      ∃ name ∈ ["Array".toList, "ReadonlyArray".toList], ∃ rest, chars = name ++ '<' :: rest := by
  simp only [isArray, Bool.or_eq_true, List.isSuffixOf_iff_suffix, List.isPrefixOf_iff_prefix]
    at array
  rcases array with (⟨front, split⟩ | ⟨rest, split⟩) | ⟨rest, split⟩
  · exact .inl ⟨front, split.symm⟩
  · exact .inr ⟨"Array".toList, by decide, rest, split.symm⟩
  · exact .inr ⟨"ReadonlyArray".toList, by decide, rest, split.symm⟩

theorem isArray_inert {chars : List Char} (inert : ∀ c ∈ chars, isInert c = true) :
    isArray chars = false := by
  rw [← Bool.not_eq_true]
  intro array
  rcases isArray_cases array with ⟨front, rfl⟩ | ⟨name, _, rest, rfl⟩
  · exact absurd (inert '[' (by simp)) (by decide)
  · exact absurd (inert '<' (by simp)) (by decide)

theorem isArray_between {first last : Char} (others : first ∉ ['A', 'R']) (inside : List Char)
    (array : isArray (first :: (inside ++ [last])) = true) :
    last = ']' ∧ ∃ front, first :: inside = front ++ ['['] := by
  rcases isArray_cases array with ⟨front, split⟩ | ⟨name, member, rest, split⟩
  · have regrouped : (first :: inside) ++ [last] = (front ++ ['[']) ++ [']'] := by
      rw [List.cons_append, split, List.append_assoc]
      rfl
    have parts := List.append_inj' regrouped rfl
    exact ⟨(List.cons.inj parts.2).1, front, parts.1⟩
  · rcases List.mem_cons.mp member with rfl | member
    · exact absurd (List.cons.inj split).1 fun same => others (same ▸ by decide)
    · cases List.mem_singleton.mp member
      exact absurd (List.cons.inj split).1 fun same => others (same ▸ by decide)

theorem TypeName.isArray_of_generic {head : TypeName} {path : List Name} {inside : List Char}
    (array : DefaultValue.isArray (qualified head path ++ '<' :: (inside ++ ['>'])) = true) :
    head.isArray = true ∧ path = [] := by
  rcases isArray_cases array with ⟨front, split⟩ | ⟨name, member, rest, split⟩
  · have whole : (qualified head path ++ '<' :: inside) ++ ['>'] = (front ++ ['[']) ++ [']'] := by
      simpa using split
    cases (List.cons.inj (List.append_inj' whole rfl).2).1
  · have parts : ∀ name ∈ ["Array".toList, "ReadonlyArray".toList],
        name.all isNamePart = true := by
      decide
    have ends (behind : List Char) :
        EndsName (path.flatMap (fun name => '.' :: name.chars) ++ '<' :: behind) := by
      rintro c first
      cases path with
      | nil => exact Option.some.inj first ▸ by decide
      | cons name path => exact Option.some.inj first ▸ by decide
    have angle : EndsName ('<' :: rest) := fun c first => Option.some.inj first ▸ by decide
    rw [qualified, List.append_assoc] at split
    have same : head.chars = name := by
      have words := congrArg (List.takeWhile isNamePart) split
      have isName : ∀ c ∈ head.chars, isNamePart c = true := head.name.isName.isNamePart
      rwa [takeWhile_append_of_endsName isName (ends _),
        takeWhile_append_of_endsName (List.all_eq_true.mp (parts name member)) angle] at words
    rw [same] at split
    refine ⟨List.contains_iff_mem.mpr (same ▸ member), ?_⟩
    cases path with
    | nil => rfl
    | cons other path => cases (List.cons.inj (List.append_cancel_left split)).1

/-- An operand that is written as an array has the empty one. -/
theorem Operand.has_emptyArray {operand : Operand}
    (array : isArray (written operand.parts) = true) : operand.Has .emptyArray := by
  have inertElse {chars : List Char} (inert : ∀ c ∈ chars, isInert c = true)
      (same : written operand.parts = chars) : False := by
    rw [same, isArray_inert inert] at array
    cases array
  cases operand with
  | keyword word => exact (inertElse word.inert (written_marks _)).elim
  | numeral number => exact (inertElse number.inert (written_marks _)).elim
  | quoted literal =>
      rw [parts, written, List.flatMap_singleton] at array
      have ending := (isArray_between (by cases literal.mark <;> decide) _ array).1
      cases mark : literal.mark <;> rw [mark] at ending <;> cases ending
  | reference head path arguments =>
      rw [parts, written_append, written_marks] at array inertElse
      cases empty : arguments.isNil with
      | true =>
          rw [empty] at inertElse
          exact (inertElse (qualified_inert head path) (List.append_nil _)).elim
      | false =>
          rw [empty, angled, if_neg Bool.false_ne_true, written_enclosed] at array
          rcases TypeName.isArray_of_generic array with ⟨isArray, plain⟩
          exact ⟨isArray, plain, empty, rfl⟩
  | array element => rfl
  | tuple elements =>
      rw [parts, written_enclosed] at array
      rcases (isArray_between (by decide) _ array).2 with ⟨front, split⟩
      cases empty : elements.isNil with
      | true =>
          cases elements with
          | nil => exact ⟨by rw [Items.mayBeEmpty], rfl⟩
          | cons slot type later => cases empty
      | false =>
          rcases elements.ended empty with ⟨inner, c, whole, isEnd⟩
          rw [whole, ← List.cons_append] at split
          have opening := (List.cons.inj (List.append_inj' split rfl).2).1
          rw [opening] at isEnd
          exact absurd isEnd (by decide)
  | object members =>
      rw [parts, written_enclosed] at array
      cases (isArray_between (by decide) _ array).1
  | enclosed inside =>
      rw [parts, written_enclosed] at array
      cases (isArray_between (by decide) _ array).1

/-! ## Literals -/

def literalStarts : List Char :=
  "\x22\x270123456789-.".toList

/-- What is read as a literal begins like one and does not end with a closing bracket. -/
theorem isLiteral_cases {chars : List Char} (isLiteral : isLiteral chars = true) :
    (∃ c ∈ chars.head?, c ∈ literalStarts) ∧ ∀ front, chars ≠ front ++ [']'] := by
  have quoted {quote : Char} (starts : quote ∈ literalStarts) (other : quote ≠ ']')
      (quoted : isQuotedBy quote chars = true) :
      (∃ c ∈ chars.head?, c ∈ literalStarts) ∧ ∀ front, chars ≠ front ++ [']'] := by
    simp only [isQuotedBy, Bool.and_eq_true, decide_eq_true_eq] at quoted
    refine ⟨⟨quote, quoted.1.2, starts⟩, ?_⟩
    rintro front rfl
    exact other (Option.some.inj (quoted.2.symm.trans List.getLast?_concat))
  rw [DefaultValue.isLiteral, Bool.or_eq_true, Bool.or_eq_true] at isLiteral
  rcases isLiteral with (double | single) | numeric
  · exact quoted (by decide) (by decide) double
  · exact quoted (by decide) (by decide) single
  · rw [isNumericLiteral, Bool.and_eq_true, Option.any_eq_true] at numeric
    rcases numeric with ⟨⟨c, head, starts⟩, numeral⟩
    have start : isNumeralStart c = true := by
      simp only [isNumeralStart, Bool.or_eq_true, decide_eq_true_eq] at starts ⊢
      rcases starts with digit | rfl
      · exact .inl digit
      · exact .inr (by decide)
    refine ⟨⟨c, head, ?_⟩, ?_⟩
    · exact List.mem_append_right ['\x22', '\x27'] (mem_of_isNumeralStart start)
    · rintro front rfl
      have part := Text.isNumeralChar_of_isNumeral numeral ']' (by simp)
      exact absurd part (by decide)

/-- An operand that is read as a literal is one. -/
theorem Operand.has_literal {operand : Operand}
    (isLiteral : isLiteral (written operand.parts) = true) :
    ∃ value : Value, value.chars = written operand.parts ∧ value.isNullish = false ∧
      operand.Has value := by
  rcases isLiteral_cases isLiteral with ⟨⟨c, first, starts⟩, notClosed⟩
  cases operand with
  | keyword word =>
      rw [parts, written_marks] at isLiteral
      exact absurd isLiteral (by cases word <;> decide)
  | quoted literal => exact ⟨.quoted literal, (List.flatMap_singleton ..).symm, rfl, rfl⟩
  | numeral number => exact ⟨.numeral number, (written_marks _).symm, rfl, rfl⟩
  | reference head path arguments =>
      rcases head.begins with ⟨d, rest, split, nameStart⟩
      have noName : literalStarts.any isNameStart = false := by decide
      rw [parts, written_append, written_marks, qualified, split] at first
      cases first
      exact absurd nameStart (List.any_eq_false.mp noName c starts)
  | array element =>
      refine absurd ?_ (notClosed (written element.parts ++ ['[']))
      rw [parts, written_append, List.append_assoc]
      rfl
  | tuple elements =>
      cases first
      exact absurd starts (by decide)
  | object members =>
      cases first
      exact absurd starts (by decide)
  | enclosed inside =>
      cases first
      exact absurd starts (by decide)

/-! ## Operands -/

/-- The keywords that stand for `undefined` or `null` among other values. -/
def Keyword.nullish : List Keyword :=
  [undefined, void, any, null]

theorem exists_of_ofKeyword? {chars : List Char} {text : String}
    (known : ofKeyword? chars = some text) :
    ∃ (keyword : Keyword) (value : Value), chars = keyword.chars ∧ value.text = text ∧
      keyword.has value = true ∧ (value.isNullish = true → keyword ∈ Keyword.nullish) := by
  have read {word : String} (same : String.ofList chars = word) : chars = word.toList := by
    rw [← same, String.toList_ofList]
  rw [ofKeyword?] at known
  split at known
  · next same =>
      cases known
      exact ⟨.number, .numeral .zero, read same, by decide, rfl, nofun⟩
  · next same =>
      cases known
      exact ⟨.string, .quoted ⟨.double, []⟩, read same, by decide, rfl, nofun⟩
  · next same =>
      cases known
      exact ⟨.boolean, .boolean false, read same, by decide, rfl, nofun⟩
  · next same =>
      cases known
      exact ⟨.bigint, .numeral .bigZero, read same, by decide, rfl, nofun⟩
  · next same =>
      cases known
      exact ⟨.any, .undefined, read same, by decide, rfl, fun _ => by decide⟩
  · next same =>
      cases known
      exact ⟨.undefined, .undefined, read same, by decide, rfl, fun _ => by decide⟩
  · next same =>
      cases known
      exact ⟨.null, .null, read same, by decide, rfl, fun _ => by decide⟩
  · next same =>
      cases known
      exact ⟨.literalTrue, .boolean true, read same, by decide, rfl, nofun⟩
  · next same =>
      cases known
      exact ⟨.literalFalse, .boolean false, read same, by decide, rfl, nofun⟩
  · cases known

theorem Operand.has_ofOperand? {operand : Operand} {text : String}
    (known : ofOperand? (written operand.parts) = some text) :
    ∃ value : Value, value.text = text ∧ operand.Has value ∧
      (value.isNullish = true → ∃ keyword ∈ Keyword.nullish, operand = .keyword keyword) := by
  rcases ofOperand?_cases known with known | ⟨array, rfl⟩ | ⟨isLiteral, rfl⟩
  · rcases exists_of_ofKeyword? known with ⟨keyword, value, same, text, has, nullish⟩
    cases Operand.eq_keyword same
    exact ⟨value, text, has, fun isNullish => ⟨keyword, nullish isNullish, rfl⟩⟩
  · exact ⟨.emptyArray, rfl, Operand.has_emptyArray array, nofun⟩
  · rcases Operand.has_literal isLiteral with ⟨value, same, notNullish, has⟩
    refine ⟨value, congrArg String.ofList same, has, fun isNullish => ?_⟩
    rw [notNullish] at isNullish
    cases isNullish

/-! ## Types -/

/-- Types in which no literal misleads the scan of the text. Brackets in a literal go in pairs, and
where a literal stands at the top level, it has no union mark outside them. -/
structure TypeTree.Legible (type : TypeTree) : Prop where
  closed : Closed type.parts
  unsplit : ∀ operand ∈ type.operands, ∀ literal ∈ operand.outerLiteral?, Unsplit literal.chars

theorem Operands.written_parts (front : List Char) (operands : Operands) :
    front ++ written operands.parts = " | ".toList.intercalate
      (front :: operands.toList.map fun operand => written operand.parts) := by
  cases operands with
  | nil =>
      rw [toList, List.map_nil, List.intercalate_singleton]
      exact List.append_nil front
  | cons operand later =>
      rw [toList, List.map_cons, List.intercalate_cons_cons, ← Operands.written_parts, parts,
        written_append, written_append, written_marks, List.append_assoc]

theorem Operands.mem_parts {part : Part} {operand : Operand} : (operands : Operands) →
    operand ∈ operands.toList → part ∈ operand.parts → part ∈ operands.parts
  | .cons first later, held, member => by
      rcases List.mem_cons.mp held with rfl | held
      · exact List.mem_append_right _ (List.mem_append_left _ member)
      · exact List.mem_append_right _ (List.mem_append_right _
          (Operands.mem_parts later held member))

namespace TypeTree

variable {type : TypeTree}

theorem mem_parts {part : Part} {operand : Operand} (held : operand ∈ type.operands)
    (member : part ∈ operand.parts) : part ∈ type.parts := by
  cases type with
  | single other =>
      cases List.mem_singleton.mp held
      exact member
  | union first second others =>
      rcases List.mem_cons.mp held with rfl | held
      · exact List.mem_append_left _ member
      · refine List.mem_append_right _ (List.mem_append_right _ ?_)
        rcases List.mem_cons.mp held with rfl | held
        · exact List.mem_append_left _ member
        · exact List.mem_append_right _ (Operands.mem_parts others held member)
  | function form signature => cases held

theorem Legible.undivided (legible : type.Legible) :
    ∀ operand ∈ type.operands, Undivided (written operand.parts) :=
  fun operand held => operand.undivided (legible.closed.of_subset fun _ => mem_parts held)
    (legible.unsplit operand held)

theorem isFunctionType_text (legible : type.Legible) (function : type.isFunction = true) :
    isFunctionType type.text.toList = true := by
  cases type with
  | single operand => cases function
  | union first second others => cases function
  | function form signature =>
      rcases signature with ⟨typeParameters, parameters, result⟩
      have closed : Closed (marks form.word ++ (angled typeParameters.isNil typeParameters.parts ++
          (.mark '(' :: (parameters.parts ++ [.mark ')']) ++
            (marks " => ".toList ++ result.parts)))) := legible.closed
      have angles := typeParameters.settled.angled typeParameters.isNil closed.right.left
      have angles' := typeParameters.settled.unsplit_angled _ closed.right.left
      have pair : ('(', ')') ∈ bracketPairs := by decide
      have brackets := parameters.settled.enclosed pair closed.right.right.left
      have brackets' := parameters.settled.unsplit pair closed.right.right.left
      have front := form.steady.1.append (angles.append brackets)
      have front' := form.steady.2.append form.steady.1 (angles.append brackets)
        (angles'.append angles brackets brackets')
      rw [text, String.toList_ofList, parts, Signature.parts, written_append, written_append,
        written_append, written_append, written_marks, written_marks]
      have arrow := isFunctionType_arrow front front' (written result.parts)
      rwa [List.append_assoc, List.append_assoc] at arrow

theorem unionMembers_text (legible : type.Legible) (noFunction : type.isFunction = false) :
    unionMembers type.text.toList = type.operands.map fun operand => written operand.parts := by
  have undivided := List.forall_mem_map.mpr legible.undivided
  have joined : type.operands ≠ [] ∧ written type.parts = " | ".toList.intercalate
      (type.operands.map fun operand => written operand.parts) := by
    cases type with
    | single operand => exact ⟨List.cons_ne_nil _ _, (List.intercalate_singleton).symm⟩
    | union first second others =>
        refine ⟨List.cons_ne_nil _ _, ?_⟩
        rw [operands, List.map_cons, List.map_cons, List.intercalate_cons_cons,
          ← Operands.written_parts, parts, written_append, written_append, written_append,
          written_marks, List.append_assoc]
    | function form signature => cases noFunction
  rw [text, String.toList_ofList, joined.2]
  exact unionMembers_intercalate (by simpa using joined.1) undivided

theorem exists_has_text (legible : type.Legible) {text : String}
    (known : defaultValue? type.text = some text) :
    ∃ value : Value, value.text = text ∧ type.Has value ∧
      (value.isNullish = true → ∃ keyword ∈ Keyword.nullish, .keyword keyword ∈ type.operands) := by
  rcases defaultValue?_cases known with ⟨notFunction, known⟩
  have noFunction : type.isFunction = false := by
    rw [← Bool.not_eq_true]
    intro function
    rw [isFunctionType_text legible function] at notFunction
    cases notFunction
  have ofKeyword (keyword : Keyword)
      (member : keyword.chars ∈ type.operands.map fun operand => written operand.parts) :
      .keyword keyword ∈ type.operands := by
    rcases List.mem_map.mp member with ⟨operand, held, same⟩
    rwa [← Operand.eq_keyword same]
  rw [unionMembers_text legible noFunction] at known
  have ofOperand {operand : Operand} (held : operand ∈ type.operands)
      (known : ofOperand? (written operand.parts) = some text) :
      ∃ value : Value, value.text = text ∧ type.Has value ∧ (value.isNullish = true →
        ∃ keyword ∈ Keyword.nullish, .keyword keyword ∈ type.operands) := by
    rcases Operand.has_ofOperand? known with ⟨value, same, has, nullish⟩
    refine ⟨value, same, has_of_mem held has, fun isNullish => ?_⟩
    rcases nullish isNullish with ⟨keyword, member, rfl⟩
    exact ⟨keyword, member, held⟩
  rcases known with ⟨undefined | void, rfl⟩ | ⟨null, rfl⟩ |
    ⟨first, second, others, members, known⟩ | ⟨single, known⟩
  · have held := ofKeyword .undefined undefined
    exact ⟨.undefined, rfl, has_of_mem held rfl, fun _ => ⟨_, by decide, held⟩⟩
  · have held := ofKeyword .void void
    exact ⟨.undefined, rfl, has_of_mem held rfl, fun _ => ⟨_, by decide, held⟩⟩
  · have held := ofKeyword .null null
    exact ⟨.null, rfl, has_of_mem held rfl, fun _ => ⟨_, by decide, held⟩⟩
  · rcases List.map_eq_cons_iff.mp members with ⟨operand, _, split, rfl, _⟩
    exact ofOperand (split ▸ List.mem_cons_self ..) known
  · cases type with
    | single operand =>
        have undivided := legible.undivided operand (List.mem_singleton_self _)
        have whole : Text.trim (written operand.parts) = written operand.parts := by
          have trimmed : Text.trim ([] ++ (written operand.parts ++ [])) = written operand.parts :=
            undivided.trim_eq nofun nofun
          rwa [List.nil_append, List.append_nil] at trimmed
        refine ofOperand (List.mem_singleton_self operand) ?_
        rwa [TypeTree.text, String.toList_ofList, parts, whole] at known
    | union first second others => simp [operands] at single
    | function form signature => cases noFunction

/-- A function type has no default. The default of any other type is one of its values, and it is
`undefined` or `null` only next to a type that says so. -/
theorem defaultValue?_has (type : TypeTree) (legible : type.Legible) :
    (type.isFunction = true → defaultValue? type.text = none) ∧
    ∀ text, defaultValue? type.text = some text →
      ∃ value : Value, value.text = text ∧ type.Has value ∧
        (value.isNullish = true → ∃ keyword ∈ Keyword.nullish, .keyword keyword ∈ type.operands) := by
  refine ⟨fun function => ?_, fun text known => exists_has_text legible known⟩
  rw [defaultValue?, if_pos (isFunctionType_text legible function)]

end TypeTree

/-! ## Literals with marks in them -/

def plainLiteral (chars : List Char) (plain : '\"' ∉ chars ∧ '\\' ∉ chars) : Literal :=
  ⟨.double, chars.attach.map fun ⟨c, member⟩ =>
    .plain c (ne_of_mem_of_not_mem member plain.1) (ne_of_mem_of_not_mem member plain.2)⟩

def items : Operand :=
  .array (.reference ⟨⟨"Item".toList, by decide⟩, by decide⟩ [] .nil)

/-- The type `"(|)" | Map<"|", Item[]> | null`. -/
def lookup : TypeTree :=
  let key := plainLiteral ['|'] (by decide)
  .union (.quoted (plainLiteral "(|)".toList (by decide)))
    (.reference ⟨⟨"Map".toList, by decide⟩, by decide⟩ []
      (.cons .argument (.single (.quoted key)) (.cons .argument (.single items) .nil)))
    (.cons (.keyword .null) .nil)

theorem legible_lookup : lookup.Legible where
  closed := by decide +kernel
  unsplit := by decide +kernel

theorem defaultValue?_has_lookup :
    lookup.Legible ∧ defaultValue? lookup.text = some "null" ∧
    ∃ value : Value, value.text = "null" ∧ lookup.Has value ∧
      (value.isNullish = true →
        ∃ keyword ∈ Keyword.nullish, .keyword keyword ∈ lookup.operands) := by
  have known : defaultValue? lookup.text = some "null" := by decide +kernel
  exact ⟨legible_lookup, known, (lookup.defaultValue?_has legible_lookup).2 "null" known⟩

/-- The type of a function from `"("` to arrays. -/
def callback : TypeTree :=
  let parameter : Slot .parameters := .parameter ⟨"mark".toList, by decide⟩ .plain
  .function .call (.signature .nil
    (.cons parameter (.single (.quoted (plainLiteral ['('] (by decide)))) .nil) (.single items))

def choice : Literal :=
  plainLiteral "a | undefined | b".toList (by decide)

/-- A bracket in a literal hides that a type is a function type, and union marks in a literal make a
union of it. -/
theorem defaultValue?_misled :
    callback.text = "(mark: \x22(\x22) => Item[]" ∧ callback.isFunction = true ∧
      defaultValue? callback.text = some "[]" ∧
    (TypeTree.single (.quoted choice)).text = "\x22a | undefined | b\x22" ∧
      defaultValue? (TypeTree.single (.quoted choice)).text = some "undefined" ∧
      ¬ ∃ value : Value, value.text = "undefined" ∧
        (TypeTree.single (.quoted choice)).Has value := by
  refine ⟨by decide +kernel, rfl, by decide +kernel, by decide +kernel, by decide +kernel, ?_⟩
  rintro ⟨value, text, has⟩
  rw [TypeTree.Has, Operand.Has] at has
  rw [has] at text
  exact absurd text (by decide +kernel)

end TypeValue

end MemberStubs
