import MemberStubs.Substitution
import MemberStubs.Proofs.TypeText.Renaming

/-! Substitutions that put names in the place of names. A name needs no parentheses, so such a
substitution does nothing but spell occurrences in another way. -/

namespace MemberStubs

namespace TypeText

theorem char_of_isArrow {depth : Int} {previous : Option Char} {chars : List Char} {place : Place}
    (member : place ∈ placesFrom depth previous chars) (arrow : place.isArrow = true) :
    place.char = '>' := by
  induction chars generalizing depth previous with
  | nil => cases member
  | cons c rest induction =>
      rcases List.mem_cons.mp member with rfl | later
      · simp only [Bool.and_eq_true, decide_eq_true_eq] at arrow
        exact arrow.1
      · exact induction later

theorem needsParentheses_of_parts {chars : List Char} (parts : ∀ c ∈ chars, isNamePart c = true) :
    needsParentheses chars = false := by
  rw [needsParentheses, List.any_eq_false]
  intro place member
  have inText : place.char ∈ chars := by
    rw [← chars_placesFrom 0 none chars]
    exact List.mem_map_of_mem member
  have different : ∀ {mark : Char}, isNamePart mark = false → place.char ≠ mark :=
    ne_of_isNamePart (parts _ inText)
  have noArrow : place.isArrow = false := by
    rw [Bool.eq_false_iff]
    intro arrow
    exact different (by decide) (char_of_isArrow member arrow)
  simp [Place.isTopArrow, noArrow, different (by decide : isNamePart '|' = false),
    different (by decide : isNamePart '&' = false),
    different (by decide : isNamePart '?' = false)]

end TypeText

namespace Substitution

open TypeText

/-- An empty substitution is no exception: it replaces nothing. -/
theorem toList_apply (substitution : Substitution) (text : String) :
    (substitution.apply text).toList = (pieces text).flatMap substitution.pieceText := by
  rw [apply]
  split
  · next empty =>
      have nothing : substitution.pieceText = Piece.chars := by
        funext piece
        cases piece with
        | verbatim chars => rfl
        | occurrence name beforeBracket =>
            rw [isEmpty, List.isEmpty_iff] at empty
            simp [pieceText, lookup?, empty, Piece.chars]
      rw [nothing, pieces, chars_piecesFrom]
  · rw [String.toList_ofList]

/-- What a substitution puts at the front of a text begins no name where none began before. -/
theorem endsName_flatMap_pieceText (substitution : Substitution) {chars : List Char}
    (ends : EndsName chars) (context : Context) :
    EndsName ((piecesFrom context chars).flatMap substitution.pieceText) := by
  cases chars with
  | nil => simpa using ends
  | cons c rest =>
      by_cases template : c = backquote
      · subst template
        rw [piecesFrom_template]
        exact ends
      · by_cases quotes : isQuote c = true
        · rw [piecesFrom_quoted context quotes template]
          exact ends
        · have marks : isMark c = true := by
            simp [isMark, quotes, isNameStart_of_not_part (ends c rfl)]
          rw [piecesFrom_mark context marks]
          exact ends

/-- How a name is spelled once its binding is in its place. -/
def spelling (substitution : Substitution) (name : List Char) : List Char :=
  ((substitution.lookup? (String.ofList name)).map String.toList).getD name

/-- Every name is replaced by a name. -/
def Respells (substitution : Substitution) : Prop :=
  ∀ binding ∈ substitution.bindings, IsName binding.2.toList

instance (substitution : Substitution) : Decidable substitution.Respells :=
  inferInstanceAs (Decidable (∀ binding ∈ substitution.bindings, IsName binding.2.toList))

theorem mem_of_lookup? {substitution : Substitution} {name replacement : String}
    (bound : substitution.lookup? name = some replacement) :
    (name, replacement) ∈ substitution.bindings := by
  rcases List.lookup_eq_some_iff.mp bound with ⟨earlier, later, split, _⟩
  rw [split]
  simp

theorem pieceText_of_unbound {substitution : Substitution} {name : List Char}
    (unbound : substitution.lookup? (String.ofList name) = none) (beforeBracket : Bool) :
    substitution.pieceText (.occurrence name beforeBracket) = name := by
  rw [pieceText, unbound]

theorem pieceText_of_name {substitution : Substitution} {name : List Char} {other : String}
    (bound : substitution.lookup? (String.ofList name) = some other)
    (isName : IsName other.toList) (beforeBracket : Bool) :
    substitution.pieceText (.occurrence name beforeBracket) = other.toList := by
  simp [pieceText, bound, replacementText, needsParentheses_of_parts isName.isNamePart]

namespace Respells

variable {substitution : Substitution}

theorem isName_spelling (respells : substitution.Respells) {name : List Char}
    (isName : IsName name) : IsName (substitution.spelling name) := by
  rw [spelling]
  cases bound : substitution.lookup? (String.ofList name) with
  | none => exact isName
  | some replacement => exact respells _ (mem_of_lookup? bound)

theorem pieceText_eq (respells : substitution.Respells) (piece : Piece) :
    substitution.pieceText piece = (piece.rename substitution.spelling).chars := by
  cases piece with
  | verbatim chars => rfl
  | occurrence name beforeBracket =>
      rw [Piece.rename, Piece.chars, spelling]
      cases bound : substitution.lookup? (String.ofList name) with
      | none => exact pieceText_of_unbound bound _
      | some other => exact pieceText_of_name bound (respells _ (mem_of_lookup? bound)) _

theorem toList_apply (respells : substitution.Respells) (text : String) :
    (substitution.apply text).toList = renamed substitution.spelling {} text.toList := by
  rw [Substitution.toList_apply, renamed, List.flatMap_map]
  exact List.flatMap_congr fun piece _ => respells.pieceText_eq piece

/-- The pieces of a text that has been respelled are its pieces, respelled. -/
theorem pieces_apply (respells : substitution.Respells) (text : String) :
    pieces (substitution.apply text) =
      (pieces text).map (Piece.rename substitution.spelling) := by
  rw [pieces, respells.toList_apply]
  exact piecesFrom_renamed (fun _ isName => respells.isName_spelling isName) (.refl {}) _

/-- A second substitution that spells every name as it was takes the first one back. -/
theorem apply_apply_eq_self (respells : substitution.Respells) {second : Substitution}
    {text : String}
    (undoes : ∀ name beforeBracket, .occurrence name beforeBracket ∈ pieces text →
      second.pieceText (.occurrence (substitution.spelling name) beforeBracket) = name) :
    second.apply (substitution.apply text) = text := by
  apply String.toList_injective
  rw [Substitution.toList_apply, respells.pieces_apply, List.flatMap_map]
  refine Eq.trans (List.flatMap_congr fun piece member => ?_) (chars_piecesFrom {} text.toList)
  cases piece with
  | verbatim chars => rfl
  | occurrence name beforeBracket => exact undoes name beforeBracket member

end Respells

end Substitution

end MemberStubs
