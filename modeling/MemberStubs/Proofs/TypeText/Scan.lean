import Mathlib.Data.List.Basic
import Mathlib.Data.List.TakeWhile
import MemberStubs.Proofs.TypeText.Names

/-! The scan of a text, step by step. What it makes of a text joins up to that text again, and what
it takes for an occurrence of a name is a name. -/

namespace MemberStubs.TypeText

/-! ## Steps -/

def TemplatePart.pieces : TemplatePart → List Piece
  | .text chars => [.verbatim chars]
  | .hole chars => piecesFrom {} chars

/-- What a name becomes that stands in a context and in front of a text. -/
def namePiece (context : Context) (name behind : List Char) : Piece :=
  if context.isQualified || (context.isKeyPosition && startsAscription behind) then
    .verbatim name
  else .occurrence name (Text.nextVisible? behind = some '[')

section

variable (context : Context)

@[simp] theorem piecesFrom_nil : piecesFrom context [] = [] := by
  rw [piecesFrom]

theorem piecesFrom_template (rest : List Char) :
    piecesFrom context (backquote :: rest) =
      .verbatim [backquote] :: ((splitTemplate rest).1.flatMap TemplatePart.pieces ++
        piecesFrom (context.after backquote) (splitTemplate rest).2) := by
  rw [piecesFrom, if_pos rfl, List.cons_append]
  congr 2
  refine (@List.flatMap_subtype _ _ _ (splitTemplate rest).1.attach _ TemplatePart.pieces
    ?_).trans ?_
  · intro part _
    cases part <;> rfl
  · rw [List.unattach_attach]

theorem piecesFrom_quoted {quote : Char} (quotes : isQuote quote = true)
    (plain : quote ≠ backquote) (rest : List Char) :
    piecesFrom context (quote :: rest) =
      .verbatim (quote :: (splitQuoted quote rest).1) ::
        piecesFrom (context.after quote) (splitQuoted quote rest).2 := by
  rw [piecesFrom, if_neg plain, if_pos quotes]

theorem piecesFrom_mark {mark : Char} (marks : isMark mark = true) (rest : List Char) :
    piecesFrom context (mark :: rest) =
      .verbatim [mark] :: piecesFrom (context.afterMark mark) rest := by
  rw [piecesFrom, if_neg (ne_backquote_of_isMark marks), if_neg (by simp [isQuote_of_isMark marks]),
    if_neg (by simp [isNameStart_of_isMark marks])]

theorem piecesFrom_name {name behind : List Char} (isName : IsName name)
    (ends : EndsName behind) :
    piecesFrom context (name ++ behind) =
      namePiece context name behind ::
        piecesFrom (context.after (name.getLastD '_')) behind := by
  cases name with
  | nil => exact isName.elim
  | cons first rest =>
      have part := isNamePart_of_isNameStart isName.1
      have notQuote := isQuote_of_isNamePart part
      rw [List.cons_append, piecesFrom, if_neg (ne_of_isNamePart part (by decide)),
        if_neg (by simp [notQuote]), if_pos isName.1, takeWhile_append_of_endsName isName.2 ends,
        dropWhile_append_of_endsName isName.2 ends, List.getLastD_cons]
      rfl

end

/-- The scan of a text as an induction over it. The holes of a template are texts of their own. -/
theorem scan_induction {motive : Context → List Char → Prop}
    (nil : ∀ context, motive context [])
    (template : ∀ context rest, (∀ hole, .hole hole ∈ (splitTemplate rest).1 → motive {} hole) →
      motive (context.after backquote) (splitTemplate rest).2 →
      motive context (backquote :: rest))
    (quoted : ∀ context quote rest, isQuote quote = true → quote ≠ backquote →
      motive (context.after quote) (splitQuoted quote rest).2 → motive context (quote :: rest))
    (name : ∀ context name behind, IsName name → EndsName behind →
      motive (context.after (name.getLastD '_')) behind → motive context (name ++ behind))
    (mark : ∀ context mark rest, isMark mark = true → motive (context.afterMark mark) rest →
      motive context (mark :: rest))
    (context : Context) (chars : List Char) : motive context chars := by
  fun_induction piecesFrom context chars with
  | case1 => exact nil _
  | case2 context rest inside holes induction => exact template _ _ holes induction
  | case3 context c rest plain quotes induction => exact quoted _ _ _ quotes plain induction
  | case4 context c rest plain notQuote starts _ behind _ induction =>
      have split := List.takeWhile_append_dropWhile (p := isNamePart) (l := rest)
      have whole := name context (c :: rest.takeWhile isNamePart) behind
        ⟨starts, fun _ => List.mem_takeWhile_imp⟩ (endsName_dropWhile rest)
        (by rwa [List.getLastD_cons])
      rwa [List.cons_append, split] at whole
  | case5 context c rest plain notQuote notStart induction =>
      exact mark _ _ _ (by simp [isMark, notQuote, notStart]) induction

/-! ## Pieces -/

theorem chars_namePiece (context : Context) (name behind : List Char) :
    (namePiece context name behind).chars = name := by
  rw [namePiece]
  split <;> rfl

/-- Cutting a text into pieces loses nothing. -/
theorem chars_piecesFrom (context : Context) (chars : List Char) :
    (piecesFrom context chars).flatMap Piece.chars = chars := by
  induction context, chars using scan_induction with
  | nil => simp
  | template context rest holes induction =>
      have inside : ((splitTemplate rest).1.flatMap TemplatePart.pieces).flatMap Piece.chars =
          (splitTemplate rest).1.flatMap TemplatePart.chars := by
        rw [List.flatMap_assoc]
        refine List.flatMap_congr fun part member => ?_
        cases part with
        | text chars => simp [TemplatePart.pieces, TemplatePart.chars, Piece.chars]
        | hole chars => exact holes chars member
      rw [piecesFrom_template, List.flatMap_cons, List.flatMap_append, inside, induction,
        splitTemplate_append]
      rfl
  | quoted context quote rest quotes plain induction =>
      rw [piecesFrom_quoted context quotes plain, List.flatMap_cons, induction, Piece.chars,
        List.cons_append, splitQuoted_append]
  | name context name behind isName ends induction =>
      rw [piecesFrom_name context isName ends, List.flatMap_cons, induction, chars_namePiece]
  | mark context mark rest marks induction =>
      rw [piecesFrom_mark context marks, List.flatMap_cons, induction]
      rfl

theorem isName_of_mem_piecesFrom {context : Context} {chars name : List Char}
    {beforeBracket : Bool} (member : .occurrence name beforeBracket ∈ piecesFrom context chars) :
    IsName name := by
  induction context, chars using scan_induction with
  | nil => simp at member
  | template context rest holes induction =>
      rw [piecesFrom_template, List.mem_cons, List.mem_append, List.mem_flatMap] at member
      rcases member with same | ⟨part, inside, found⟩ | later
      · cases same
      · cases part with
        | text chars => simp [TemplatePart.pieces] at found
        | hole chars => exact holes chars inside found
      · exact induction later
  | quoted context quote rest quotes plain induction =>
      rw [piecesFrom_quoted context quotes plain, List.mem_cons] at member
      rcases member with same | later
      · cases same
      · exact induction later
  | name context word behind isName ends induction =>
      rw [piecesFrom_name context isName ends, List.mem_cons, namePiece] at member
      rcases member with same | later
      · split at same
        · cases same
        · cases same
          exact isName
      · exact induction later
  | mark context mark rest marks induction =>
      rw [piecesFrom_mark context marks, List.mem_cons] at member
      rcases member with same | later
      · cases same
      · exact induction later

end MemberStubs.TypeText
