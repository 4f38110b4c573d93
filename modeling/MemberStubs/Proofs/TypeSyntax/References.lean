import MemberStubs.Proofs.Substitution.Spelling
import MemberStubs.Proofs.TypeSyntax.Reading

/-! A substitution in a written type against one in its tree. They agree when every word that the
scan of a text misreads is spelled as before, and only then. -/

namespace MemberStubs

namespace TypeSyntax

open TypeText

/-! ## Words apart -/

def Apart : List Part → Prop
  | [] => True
  | .mark _ :: later => Apart later
  | .quoted _ :: later => Apart later
  | .word _ _ :: later => EndsWord later ∧ Apart later

theorem Apart.append {first second : List Part} (firstApart : Apart first)
    (ends : EndsWord second) (secondApart : Apart second) : Apart (first ++ second) := by
  induction first with
  | nil => exact secondApart
  | cons part later induction =>
      cases part with
      | mark c => exact induction firstApart
      | quoted literal => exact induction firstApart
      | word role name =>
          rcases firstApart with ⟨laterEnds, laterApart⟩
          exact ⟨laterEnds.append ends, induction laterApart⟩

theorem apart_operand {inside : Bool → List Part} (apart : ∀ behindDots, Apart (inside behindDots))
    (encloses behindDots : Bool) : Apart (operand encloses inside behindDots) := by
  cases encloses with
  | false => exact apart behindDots
  | true => exact (apart false).append (.mark (by decide) []) trivial

theorem apart_members (path : List Name) : Apart (path.flatMap memberParts) := by
  induction path with
  | nil => trivial
  | cons name path induction => exact ⟨endsWord_members path, induction⟩

theorem Slot.apart {group : Group} (slot : Slot group) (isCompound : Bool)
    {type : Bool → List Part} (apart : ∀ behindDots, Apart (type behindDots)) :
    Apart (slot.parts isCompound type) := by
  have annotated : ∀ isOptional, EndsWord (ascription isOptional ++ type false) ∧
      Apart (ascription isOptional ++ type false) := by
    intro isOptional
    refine ⟨endsWord_ascription isOptional _, ?_⟩
    cases isOptional <;> exact apart false
  cases slot with
  | argument => exact apart false
  | element form =>
      cases form with
      | plain => exact apart false
      | optional =>
          exact (apart_operand apart isCompound false).append (.mark (by decide) []) trivial
      | spread => exact apart true
  | property key isReadonly isOptional separator =>
      cases isReadonly with
      | false => exact annotated isOptional
      | true => exact ⟨.mark (by decide) _, annotated isOptional⟩
  | parameter name form =>
      cases form with
      | plain => exact annotated false
      | optional => exact annotated true
      | rest => exact annotated false

mutual
theorem TypeTerm.apart : (type : TypeTerm) → ∀ behindDots, Apart (type.parts behindDots)
  | .reference head path arguments, _ => by
      have argumentsEnd := endsWord_angled arguments.isNil arguments.parts
      have argumentsApart : Apart (angled arguments.isNil arguments.parts) := by
        rw [angled]
        split
        · trivial
        · exact arguments.apart.append (.mark (by decide) []) trivial
      exact ⟨(endsWord_members path).append argumentsEnd,
        (apart_members path).append argumentsEnd argumentsApart⟩
  | .literal literal, _ => trivial
  | .array element, behindDots =>
      (apart_operand element.apart element.isCompound behindDots).append (.mark (by decide) _)
        trivial
  | .tuple elements, _ => elements.apart.append (.mark (by decide) []) trivial
  | .object properties, _ => properties.apart.append (.mark (by decide) _) trivial
  | .function parameters result, _ => by
      have arrow : Apart (marks [')', ' ', '=', '>', ' '] ++ result.parts false) :=
        result.apart false
      exact parameters.apart.append (.mark (by decide) _) arrow
  | .union left right, behindDots =>
      (apart_operand left.apart left.isFunction behindDots).append (.mark (by decide) _)
        (apart_operand right.apart right.isCompound false)

theorem Items.apart {group : Group} : (items : Items group) → Apart items.parts
  | .nil => trivial
  | .cons slot type later => by
      have first := slot.apart type.isCompound type.apart
      rw [Items.parts]
      split
      · rwa [List.append_nil]
      · have separated : Apart (marks slot.separator ++ later.parts) := by
          rcases slot.separator_cases with same | same | same <;> rw [same] <;>
            exact later.apart
        exact first.append (slot.endsWord_separator _) separated
end

/-! ## One text for two spellings -/

section

variable {replace : Name → Name}

theorem endsName_respelled (chosen : Role → Bool) {parts : List Part} (ends : EndsWord parts) :
    EndsName (written (respelled replace chosen parts)) := by
  have here := ends [] nofun
  cases parts with
  | nil => exact nofun
  | cons part later =>
      cases part with
      | mark c => exact here
      | quoted literal => exact here
      | word role name =>
          have starts : EndsName (name.chars ++ (written later ++ [])) := by
            rwa [written_cons, List.append_assoc] at here
          rcases name with ⟨chars, isName⟩
          cases chars with
          | nil => exact isName.elim
          | cons c chars =>
              have part := isNamePart_of_isNameStart isName.1
              rw [starts c rfl] at part
              cases part

/-- Two names with different texts behind them differ already as names. -/
theorem append_names_inj {first second : Name} {behindFirst behindSecond : List Char}
    (firstEnds : EndsName behindFirst) (secondEnds : EndsName behindSecond)
    (same : first.chars ++ behindFirst = second.chars ++ behindSecond) :
    first = second ∧ behindFirst = behindSecond := by
  have names := congrArg (List.takeWhile isNamePart) same
  have behind := congrArg (List.dropWhile isNamePart) same
  rw [takeWhile_append_of_endsName first.isName.isNamePart firstEnds,
    takeWhile_append_of_endsName second.isName.isNamePart secondEnds] at names
  rw [dropWhile_append_of_endsName first.isName.isNamePart firstEnds,
    dropWhile_append_of_endsName second.isName.isNamePart secondEnds] at behind
  exact ⟨Name.ext_chars names, behind⟩

theorem chosen_eq_iff {name : Name} (first second : Bool) :
    (if first then replace name else name) = (if second then replace name else name) ↔
      (first ≠ second → replace name = name) := by
  cases first <;> cases second <;> simp [eq_comm]

theorem written_respelled_eq_iff {first second : Role → Bool} {parts : List Part}
    (apart : Apart parts) :
    written (respelled replace first parts) = written (respelled replace second parts) ↔
      ∀ role name, .word role name ∈ parts → first role ≠ second role → replace name = name := by
  induction parts with
  | nil => simp [respelled]
  | cons part later induction =>
      rw [respelled_cons, respelled_cons, written_cons, written_cons]
      cases part with
      | mark c => simpa [Part.respell] using induction apart
      | quoted literal => simpa [Part.respell] using induction apart
      | word role name =>
          rcases apart with ⟨ends, laterApart⟩
          constructor
          · intro same
            rcases append_names_inj (endsName_respelled first ends) (endsName_respelled second ends)
              same with ⟨here, behind⟩
            intro other word member differs
            rcases List.mem_cons.mp member with head | inLater
            · cases head
              exact (chosen_eq_iff _ _).mp here differs
            · exact (induction laterApart).mp behind other word inLater differs
          · intro keeps
            have behind := (induction laterApart).mpr fun other word inLater =>
              keeps other word (List.mem_cons_of_mem _ inLater)
            have here := (chosen_eq_iff (first role) (second role)).mpr
              (keeps role name (List.mem_cons_self ..))
            rw [behind, Part.respell, Part.respell, here]

end

/-! ## Trees -/

section

variable (replace : Name → Name)

@[simp] theorem TypeTerm.isFunction_instantiate (type : TypeTerm) :
    (type.instantiate replace).isFunction = type.isFunction := by
  rcases type with ⟨head, _ | _, arguments⟩ | _ | _ | _ | _ | _ | _ <;> rfl

@[simp] theorem TypeTerm.isCompound_instantiate (type : TypeTerm) :
    (type.instantiate replace).isCompound = type.isCompound := by
  rcases type with ⟨head, _ | _, arguments⟩ | _ | _ | _ | _ | _ | _ <;> rfl

@[simp] theorem Items.isNil_instantiate {group : Group} (items : Items group) :
    (items.instantiate replace).isNil = items.isNil := by
  cases items <;> rfl

variable (chosen : Role → Bool)

@[simp] theorem respelled_marks (chars : List Char) :
    respelled replace chosen (marks chars) = marks chars := by
  rw [respelled, marks, List.map_map]
  rfl

theorem respelled_operand (encloses : Bool) (inside : Bool → List Part) (behindDots : Bool) :
    respelled replace chosen (operand encloses inside behindDots) =
      operand encloses (fun dots => respelled replace chosen (inside dots)) behindDots := by
  cases encloses with
  | false => rfl
  | true => simp [operand, Part.respell]

theorem respelled_angled (isNil : Bool) (inside : List Part) :
    respelled replace chosen (angled isNil inside) =
      angled isNil (respelled replace chosen inside) := by
  cases isNil <;> simp [angled, Part.respell]

theorem respelled_ascription (isOptional : Bool) :
    respelled replace chosen (ascription isOptional) = ascription isOptional := by
  cases isOptional <;> rfl

theorem respelled_member (name : Name) :
    respelled replace Role.isMeant (memberParts name) = memberParts name :=
  rfl

theorem respelled_members (path : List Name) :
    respelled replace Role.isMeant (path.flatMap memberParts) = path.flatMap memberParts := by
  rw [respelled, List.map_flatMap]
  rfl

theorem Slot.respelled_parts {group : Group} (slot : Slot group) (isCompound : Bool)
    (type : Bool → List Part) :
    respelled replace Role.isMeant (slot.parts isCompound type) =
      slot.parts isCompound fun dots => respelled replace Role.isMeant (type dots) := by
  cases slot with
  | argument => rfl
  | element form =>
      cases form <;> simp [Slot.parts, respelled_operand, Part.respell]
  | property key isReadonly isOptional separator =>
      cases isReadonly <;> simp [Slot.parts, respelled_ascription, Part.respell, Role.isMeant]
  | parameter name form =>
      cases form <;> simp [Slot.parts, respelled_ascription, Part.respell, Role.isMeant]

mutual
/-- Replacing the references of a tree respells the words that are meant, and no others. -/
theorem TypeTerm.parts_instantiate : (type : TypeTerm) →
    (type.instantiate replace).parts =
      fun behindDots => respelled replace Role.isMeant (type.parts behindDots)
  | .reference head [] arguments => by
      funext behindDots
      simp [TypeTerm.instantiate, TypeTerm.parts, arguments.parts_instantiate,
        respelled_angled, Part.respell, Role.isMeant]
  | .reference head (next :: path) arguments => by
      funext behindDots
      simp [TypeTerm.instantiate, TypeTerm.parts, arguments.parts_instantiate,
        respelled_angled, Part.respell, Role.isMeant, respelled_member, respelled_members]
  | .literal literal => rfl
  | .array element => by
      funext behindDots
      simp [TypeTerm.instantiate, TypeTerm.parts, element.parts_instantiate, respelled_operand]
  | .tuple elements => by
      funext behindDots
      simp [TypeTerm.instantiate, TypeTerm.parts, elements.parts_instantiate, Part.respell]
  | .object properties => by
      funext behindDots
      simp [TypeTerm.instantiate, TypeTerm.parts, properties.parts_instantiate, Part.respell]
  | .function parameters result => by
      funext behindDots
      simp [TypeTerm.instantiate, TypeTerm.parts, parameters.parts_instantiate,
        result.parts_instantiate, Part.respell]
  | .union left right => by
      funext behindDots
      simp [TypeTerm.instantiate, TypeTerm.parts, left.parts_instantiate,
        right.parts_instantiate, respelled_operand]

theorem Items.parts_instantiate {group : Group} : (items : Items group) →
    (items.instantiate replace).parts = respelled replace Role.isMeant items.parts
  | .nil => rfl
  | .cons slot type later => by
      have last : ∀ parts, respelled replace Role.isMeant (if later.isNil then [] else parts) =
          if later.isNil then [] else respelled replace Role.isMeant parts := by
        intro parts
        split <;> rfl
      simp [Items.instantiate, Items.parts, type.parts_instantiate, later.parts_instantiate,
        Slot.respelled_parts, last]
end

end

/-! ## Misread words -/

def Part.misread? : Part → Option Name
  | .word role name => if role.isMisread then some name else none
  | _ => none

def TypeTerm.misread (type : TypeTerm) : List Name :=
  (type.parts false).filterMap Part.misread?

theorem TypeTerm.mem_misread {type : TypeTerm} {name : Name} :
    name ∈ type.misread ↔
      ∃ role, .word role name ∈ type.parts false ∧ role.isSeen ≠ role.isMeant := by
  rw [misread, List.mem_filterMap]
  constructor
  · rintro ⟨part, member, found⟩
    cases part with
    | word role word =>
        rw [Part.misread?, Role.isMisread] at found
        split at found
        · next differs =>
            cases found
            exact ⟨role, member, bne_iff_ne.mp differs⟩
        · cases found
    | _ => cases found
  · rintro ⟨role, member, differs⟩
    exact ⟨_, member, if_pos (bne_iff_ne.mpr differs)⟩

end TypeSyntax

namespace Substitution

open TypeSyntax

def Respells.replace {substitution : Substitution} (respells : substitution.Respells)
    (name : Name) : Name :=
  ⟨substitution.spelling name.chars, respells.isName_spelling name.isName⟩

/-- What a substitution makes of a written type is the written form of the type with its references
replaced, exactly when it keeps the spelling of every misread word. -/
theorem apply_text_eq_iff {substitution : Substitution} (respells : substitution.Respells)
    (type : TypeTerm) :
    substitution.apply type.text = (type.instantiate respells.replace).text ↔
      ∀ name ∈ type.misread, respells.replace name = name := by
  have scanned : (substitution.apply type.text).toList =
      TypeSyntax.written (respelled respells.replace Role.isSeen (type.parts false)) := by
    have reads : ReadsType respells.replace substitution.spelling type.parts :=
      type.reads fun _ => rfl
    have whole := @ReadsType.unqualified _ _ _ reads {} rfl rfl [] nofun
    rw [respells.toList_apply, TypeTerm.text, String.toList_ofList]
    simpa using whole
  rw [← String.toList_inj, scanned, TypeTerm.text, String.toList_ofList,
    TypeTerm.parts_instantiate, written_respelled_eq_iff (type.apart false)]
  constructor
  · intro keeps name misread
    rcases TypeTerm.mem_misread.mp misread with ⟨role, member, differs⟩
    exact keeps role name member differs
  · intro keeps role name member differs
    exact keeps name (TypeTerm.mem_misread.mpr ⟨role, member, differs⟩)

/-! One substitution where a scan and a tree agree, and where they do not. -/

namespace NamedUser

def user : Substitution :=
  ⟨[("T", "User")]⟩

theorem respells_user : user.Respells := by
  decide

def t : Name := ⟨['T'], by decide⟩

def named (name : Name) : TypeTerm :=
  .reference name [] .nil

def keyed : TypeTerm :=
  .object (.cons (.property t false true .semicolon) (.array (named t))
    (.cons (.property ⟨"key".toList, by decide⟩ false false .comma)
      (.union (.reference ⟨"NS".toList, by decide⟩ [t] .nil)
        (.literal ⟨.single, [.plain 'T' (by decide) (by decide)]⟩))
      .nil))

example : keyed.text = "\x7b T?: T[]; key: NS.T | \x27T\x27 \x7d" := by decide

theorem apply_keyed : user.Respells ∧
    user.apply keyed.text = (keyed.instantiate respells_user.replace).text :=
  ⟨respells_user, (apply_text_eq_iff respells_user keyed).mpr (by decide)⟩

def spread : TypeTerm :=
  .tuple (.cons (.element .spread) (named t) .nil)

def readonly : TypeTerm :=
  .object (.cons (.property t true false .semicolon) (named t) .nil)

theorem misreads_spread_readonly :
    user.apply spread.text = "[...T]" ∧
      (spread.instantiate respells_user.replace).text = "[...User]" ∧
      user.apply readonly.text = "\x7b readonly User: User \x7d" ∧
      (readonly.instantiate respells_user.replace).text = "\x7b readonly T: User \x7d" := by
  decide +kernel

end NamedUser

end Substitution

end MemberStubs
