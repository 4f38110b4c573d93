import MemberStubs.Proofs.Stub.DefaultValue
import MemberStubs.Proofs.Text.Brackets
import MemberStubs.Proofs.Text.Numerals
import MemberStubs.Stub.Synthesis
import MemberStubs.TypeText.Quotes

/-! Brackets of stubs. What a stub copies may have brackets, as long as they are balanced; what it adds
by itself is balanced, and so is a value that is told from a type. -/

namespace MemberStubs

open Text

/-- A text that closes every bracket it opens and quotes nothing. -/
structure Copyable (text : String) : Prop where
  balanced : Balanced text.toList
  unquoted : ∀ c ∈ text.toList, TypeText.isQuote c = false

/-! ## The texts of a member -/

def TypeParameter.texts (parameter : TypeParameter) : List String :=
  parameter.name :: (parameter.constraint.toList ++ parameter.fallback.toList)

def Parameter.texts (parameter : Parameter) : List String :=
  parameter.name :: parameter.type.toList

def MemberShape.texts : MemberShape → List String
  | .method typeParameters parameters returnType =>
      typeParameters.flatMap TypeParameter.texts ++ parameters.flatMap Parameter.texts ++
        returnType.toList
  | .property type => type.toList
  | .getter returnType => returnType.toList
  | .setter parameter => parameter.texts
  | .accessorPair returnType parameter => returnType.toList ++ parameter.texts
  | .unknown => []

/-- Everything that a stub for a member copies. -/
def Member.texts (member : Member) : List String :=
  member.name :: member.shape.texts

/-! ## Default values -/

namespace DefaultValue

theorem balanced_ofKeyword? {type : List Char} {value : String}
    (known : ofKeyword? type = some value) : Balanced value.toList := by
  rw [ofKeyword?] at known
  split at known <;> cases known <;> decide

/-- Without quotation marks, only numerals are literals. -/
theorem isNumeralChar_of_isLiteral {type : List Char}
    (unquoted : ∀ c ∈ type, TypeText.isQuote c = false) (literal : isLiteral type = true) :
    ∀ c ∈ type, isNumeralChar c = true := by
  have notQuoted {quote : Char} (isQuote : TypeText.isQuote quote = true) :
      isQuotedBy quote type = false := by
    rw [← Bool.not_eq_true]
    intro quoted
    simp only [isQuotedBy, Bool.and_eq_true, decide_eq_true_eq] at quoted
    have member := List.mem_of_mem_head? quoted.1.2
    rw [unquoted quote member] at isQuote
    cases isQuote
  rw [isLiteral, notQuoted (by decide), notQuoted (by decide), Bool.false_or, Bool.false_or,
    isNumericLiteral, Bool.and_eq_true] at literal
  exact isNumeralChar_of_isNumeral literal.2

theorem balanced_ofOperand? {type : List Char} {value : String}
    (unquoted : ∀ c ∈ type, TypeText.isQuote c = false) (known : ofOperand? type = some value) :
    Balanced value.toList := by
  rcases ofOperand?_cases known with keyword | ⟨_, rfl⟩ | ⟨literal, rfl⟩
  · exact balanced_ofKeyword? keyword
  · decide
  · rw [String.toList_ofList]
    exact .of_plain fun c member =>
      isBracket_eq_false_of (isNumeralChar_of_isLiteral unquoted literal c member) (by decide)

end DefaultValue

theorem balanced_defaultValue? {type value : String}
    (unquoted : ∀ c ∈ type.toList, TypeText.isQuote c = false)
    (known : defaultValue? type = some value) : Balanced value.toList := by
  rcases (defaultValue?_cases known).2 with ⟨_, rfl⟩ | ⟨_, rfl⟩ | ⟨first, second, others, members,
    known⟩ | ⟨_, known⟩
  · decide
  · decide
  · exact DefaultValue.balanced_ofOperand? (fun c inside => unquoted c
      (TypeText.mem_of_mem_unionMembers (members ▸ List.mem_cons_self ..) inside)) known
  · exact DefaultValue.balanced_ofOperand?
      (fun c inside => unquoted c (TypeText.mem_of_mem_trim inside)) known

/-! ## Declarations -/

theorem balanced_append {first second : String} (balanced : Balanced first.toList)
    (balanced' : Balanced second.toList) : Balanced (first ++ second).toList := by
  rw [String.toList_append]
  exact balanced.append balanced'

theorem balanced_intercalate {separator : String} {parts : List String}
    (balanced : Balanced separator.toList) (balanced' : ∀ part ∈ parts, Balanced part.toList) :
    Balanced (separator.intercalate parts).toList := by
  rw [String.toList_intercalate]
  exact balanced.intercalate (List.forall_mem_map.mpr balanced')

theorem balanced_elim {part : Option String} {before : String} (balanced : Balanced before.toList)
    (balanced' : ∀ text ∈ part, Balanced text.toList) :
    Balanced (part.elim "" (before ++ ·)).toList := by
  cases part with
  | none => exact .nil
  | some text => exact balanced_append balanced (balanced' text rfl)

theorem balanced_typeAscription {type : Option String} (copyable : ∀ text ∈ type, Copyable text) :
    Balanced (typeAscription type).toList := by
  cases type with
  | none => exact .nil
  | some type =>
      have trimmed : Balanced (Text.trimmed type).toList := by
        rw [Text.trimmed, String.toList_ofList]
        exact (copyable type rfl).balanced.of_filter_eq (filter_trim _)
      rw [typeAscription]
      split
      · exact .nil
      · exact .nil
      · next trimmedType same =>
          cases same
          exact balanced_append (by decide) trimmed

theorem TypeParameter.balanced_text {parameter : TypeParameter}
    (copyable : ∀ text ∈ parameter.texts, Copyable text) : Balanced parameter.text.toList := by
  simp only [texts, List.forall_mem_cons, List.forall_mem_append, Option.mem_toList] at copyable
  rcases copyable with ⟨name, constraint, fallback⟩
  exact balanced_append
    (balanced_append name.balanced
      (balanced_elim (by decide) fun text member => (constraint text member).balanced))
    (balanced_elim (by decide) fun text member => (fallback text member).balanced)

theorem balanced_typeParametersText {parameters : List TypeParameter}
    (copyable : ∀ text ∈ parameters.flatMap TypeParameter.texts, Copyable text) :
    Balanced (typeParametersText parameters).toList := by
  rw [typeParametersText]
  split
  · exact .nil
  · refine balanced_append (balanced_append (by decide) ?_) (by decide)
    refine balanced_intercalate (by decide) (List.forall_mem_map.mpr fun parameter member => ?_)
    exact TypeParameter.balanced_text fun text inside =>
      copyable text (List.mem_flatMap.mpr ⟨parameter, member, inside⟩)

theorem balanced_optionalMark (isOptional : Bool) : Balanced (optionalMark isOptional).toList := by
  cases isOptional <;> decide

theorem Parameter.balanced_text {parameter : Parameter}
    (copyable : ∀ text ∈ parameter.texts, Copyable text) : Balanced parameter.text.toList := by
  simp only [texts, List.forall_mem_cons, Option.mem_toList] at copyable
  have dots : Balanced (if parameter.isRest then "..." else "").toList := by
    cases parameter.isRest <;> decide
  exact balanced_append (balanced_append (balanced_append dots copyable.1.balanced)
    (balanced_optionalMark _)) (balanced_typeAscription copyable.2)

/-- Two texts around a balanced one that are a bracket and its counterpart. -/
theorem balanced_enclosed {inside : String} (bracket : Bracket)
    (balanced : Balanced inside.toList) {before after : String}
    (opens : before.toList = [bracket.opening]) (closes : after.toList = [bracket.closing]) :
    Balanced (before ++ inside ++ after).toList := by
  rw [String.toList_append, String.toList_append, opens, closes, List.append_assoc]
  exact balanced.enclosed bracket

theorem balanced_parametersText {parameters : List Parameter}
    (copyable : ∀ text ∈ parameters.flatMap Parameter.texts, Copyable text) :
    Balanced (parametersText parameters).toList := by
  refine balanced_enclosed .round ?_ rfl rfl
  refine balanced_intercalate (by decide) (List.forall_mem_map.mpr fun parameter member => ?_)
  exact Parameter.balanced_text fun text inside =>
    copyable text (List.mem_flatMap.mpr ⟨parameter, member, inside⟩)

theorem Member.balanced_accessText (member : Member) : Balanced member.accessText.toList := by
  rw [accessText]
  cases member.visibility <;> decide

/-! ## Bodies -/

theorem balanced_workMarker {name : String} (balanced : Balanced name.toList) :
    Balanced (workMarker name).toList :=
  balanced_append (by decide) balanced

namespace StubStyle

variable {style : StubStyle} {member : Member}

theorem balanced_valueBody {name : String} (balanced : Balanced name.toList)
    {returnType : Option String} (copyable : ∀ text ∈ returnType, Copyable text) :
    ∀ line ∈ style.valueBody name returnType, Balanced line.toList := by
  have throws : Balanced notImplemented.toList := by decide
  have marks := balanced_workMarker balanced
  rw [valueBody]
  split
  · exact List.forall_mem_singleton.mpr throws
  · split
    · split
      · next value known =>
          rcases Option.bind_eq_some_iff.mp known with ⟨type, held, known⟩
          have value := balanced_defaultValue? (copyable type held).unquoted known
          exact List.forall_mem_singleton.mpr
            (balanced_append (balanced_append (by decide) value) (by decide))
      · exact List.forall_mem_singleton.mpr throws
    · exact nofun
  · split
    · exact List.forall_mem_cons.mpr ⟨marks, List.forall_mem_singleton.mpr throws⟩
    · exact List.forall_mem_singleton.mpr marks

theorem balanced_setterBody {name : String} (balanced : Balanced name.toList) :
    ∀ line ∈ style.setterBody name, Balanced line.toList := by
  rw [setterBody]
  split
  · decide
  · exact nofun
  · exact List.forall_mem_singleton.mpr (balanced_workMarker balanced)

theorem balanced_withBody (indent : Balanced style.indentUnit.toList) {head : String}
    (balanced : Balanced head.toList) {body : List String}
    (lines : ∀ line ∈ body, Balanced line.toList) :
    Balanced (style.withBody head body).toList := by
  rw [withBody]
  split
  · exact balanced_append balanced (by decide)
  · have inside : Balanced (String.join (body.map ("\n" ++ style.indentUnit ++ ·))).toList := by
      rw [String.toList_join]
      refine .flatMap (List.forall_mem_map.mpr fun line member => ?_)
      exact balanced_append (balanced_append (by decide) indent) (lines line member)
    have braces : Balanced (" \x7b".toList ++
        (String.join (body.map ("\n" ++ style.indentUnit ++ ·))).toList ++ "\n\x7d".toList) := by
      have broken := Balanced.enclosed .curly (inside.append (by decide : Balanced ['\n']))
      rw [List.append_assoc] at broken ⊢
      have blank : Balanced [' '] := by decide
      exact blank.append broken
    rw [String.toList_append, String.toList_append, String.toList_append, List.append_assoc,
      List.append_assoc, ← List.append_assoc " \x7b".toList]
    exact balanced.append braces

/-! ## Declarations -/

theorem balanced_methodText (indent : Balanced style.indentUnit.toList)
    {typeParameters : List TypeParameter} {parameters : List Parameter} {returnType : Option String}
    (name : Copyable member.name)
    (copyable : ∀ text ∈ (MemberShape.method typeParameters parameters returnType).texts,
      Copyable text) :
    Balanced (style.methodText member typeParameters parameters returnType).toList := by
  simp only [MemberShape.texts, List.forall_mem_append, Option.mem_toList] at copyable
  rcases copyable with ⟨⟨typeParameters, parameters⟩, returnType⟩
  refine balanced_withBody indent ?_ (balanced_valueBody name.balanced returnType)
  exact balanced_append (balanced_append (balanced_append (balanced_append (balanced_append
    member.balanced_accessText name.balanced) (balanced_optionalMark _))
    (balanced_typeParametersText typeParameters)) (balanced_parametersText parameters))
    (balanced_typeAscription returnType)

theorem balanced_propertyText {type : Option String} (name : Copyable member.name)
    (copyable : ∀ text ∈ type, Copyable text) :
    Balanced (style.propertyText member type).toList := by
  have modifier : Balanced (if member.isReadonly then "readonly " else "").toList := by
    cases member.isReadonly <;> decide
  have initial : ∀ value ∈ style.initialValue? member type, Balanced value.toList := by
    intro value known
    rw [initialValue?] at known
    split at known
    · rcases Option.bind_eq_some_iff.mp known with ⟨type, held, known⟩
      exact balanced_defaultValue? (copyable type held).unquoted known
    · cases known
  exact balanced_append (balanced_append (balanced_append (balanced_append (balanced_append
    (balanced_append member.balanced_accessText modifier) name.balanced) (balanced_optionalMark _))
    (balanced_typeAscription copyable)) (balanced_elim (by decide) initial)) (by decide)

theorem balanced_getterText (indent : Balanced style.indentUnit.toList) {returnType : Option String}
    (name : Copyable member.name) (copyable : ∀ text ∈ returnType, Copyable text) :
    Balanced (style.getterText member returnType).toList := by
  refine balanced_withBody indent ?_ (balanced_valueBody name.balanced copyable)
  exact balanced_append (balanced_append (balanced_append (balanced_append
    member.balanced_accessText (by decide)) name.balanced) (by decide))
    (balanced_typeAscription copyable)

theorem balanced_setterText (indent : Balanced style.indentUnit.toList) {parameter : Parameter}
    (name : Copyable member.name) (copyable : ∀ text ∈ parameter.texts, Copyable text) :
    Balanced (style.setterText member parameter).toList := by
  refine balanced_withBody indent ?_ (balanced_setterBody name.balanced)
  exact balanced_append (balanced_append (balanced_append member.balanced_accessText (by decide))
    name.balanced) (balanced_parametersText (by simpa using copyable))

/-- A stub for a member whose texts are balanced is balanced, whatever its style. -/
theorem balanced_synthesize (indent : Balanced style.indentUnit.toList)
    (copyable : ∀ text ∈ member.texts, Copyable text) {stub : Stub}
    (synthesized : style.synthesize member = .ok stub) : Balanced stub.text.toList := by
  rcases List.forall_mem_cons.mp copyable with ⟨name, texts⟩
  rw [synthesize] at synthesized
  cases shape : member.shape with
  | method typeParameters parameters returnType =>
      rw [shape] at synthesized texts
      cases synthesized
      exact balanced_methodText indent name texts
  | property type =>
      rw [shape] at synthesized texts
      cases synthesized
      exact balanced_propertyText name (by simpa [MemberShape.texts] using texts)
  | getter returnType =>
      rw [shape] at synthesized texts
      cases synthesized
      exact balanced_getterText indent name (by simpa [MemberShape.texts] using texts)
  | setter parameter =>
      rw [shape] at synthesized texts
      cases synthesized
      exact balanced_setterText indent name texts
  | accessorPair returnType parameter =>
      rw [shape] at synthesized texts
      cases synthesized
      simp only [MemberShape.texts, List.forall_mem_append, Option.mem_toList] at texts
      exact balanced_append (balanced_append (balanced_getterText indent name texts.1) (by decide))
        (balanced_setterText indent name texts.2)
  | unknown =>
      rw [shape] at synthesized
      cases synthesized

end StubStyle

end MemberStubs
