import Mathlib.Data.Bool.AllAny
import Mathlib.Data.List.TakeWhile
import MemberStubs.Proofs.TypeGrammar.Form

/-! The tokens of a text. Blanks stand between tokens and mean nothing else. -/

namespace MemberStubs.TypeGrammar

open TypeText

def word (chars : List Char) : Token :=
  if chars = "keyof".toList then .keyof
  else if chars = "extends".toList then .extends
  else .name chars

def symbol? (c : Char) : Option Token :=
  if c = '|' then some (.operator .union)
  else if c = '&' then some (.operator .intersection)
  else if ['(', ')', '[', ']', '<', '>', ',', '?', ':'].contains c then some (.mark c)
  else none

def lex : List Char → Option (List Token)
  | [] => some []
  | '=' :: '>' :: rest => (lex rest).map (.arrow :: ·)
  | c :: rest =>
      if isNameStart c then
        (lex (rest.dropWhile isNamePart)).map (word (c :: rest.takeWhile isNamePart) :: ·)
      else if Text.isBlank c then lex rest
      else (symbol? c).bind fun token => (lex rest).map (token :: ·)
termination_by chars => chars.length
decreasing_by
  · simp only [List.length_cons]
    omega
  · have := length_dropWhile_le isNamePart rest
    simp only [List.length_cons]
    omega
  · simp
  · simp

/-- A well-formed form is what a text says if its tokens are those of the text. -/
def Parses (text : String) (form : Form) : Prop :=
  form.WellFormed ∧ lex text.toList = some form.tokens

/-- A text that parses, and to nothing else than this tree. -/
def Means (text : String) (tree : Form) : Prop :=
  (∃ form, Parses text form) ∧ ∀ form, Parses text form → form.plain = tree

/-! ## Steps -/

theorem symbol?_cases {c : Char} {token : Token} (symbol : symbol? c = some token) :
    c ∈ ['|', '&', '(', ')', '[', ']', '<', '>', ',', '?', ':'] := by
  rw [symbol?] at symbol
  split at symbol
  · next same => simp [same]
  · split at symbol
    · next same => simp [same]
    · split at symbol
      · next inList =>
          simp only [List.contains_eq_mem, decide_eq_true_eq] at inList
          simp_all
      · cases symbol

theorem symbol?_plain {c : Char} {token : Token} (symbol : symbol? c = some token) :
    isMark c = true ∧ isNamePart c = false ∧ Text.isBlank c = false ∧
      c ≠ '=' ∧ c ≠ '.' ∧ c ≠ '\x7b' := by
  have all : ∀ c ∈ ['|', '&', '(', ')', '[', ']', '<', '>', ',', '?', ':'],
      isMark c = true ∧ isNamePart c = false ∧ Text.isBlank c = false ∧
        c ≠ '=' ∧ c ≠ '.' ∧ c ≠ '\x7b' := List.all_iff_forall_prop.mp (by decide)
  exact all c (symbol?_cases symbol)

theorem symbol?_eq_bracket {c : Char} {token : Token} (symbol : symbol? c = some token) :
    c = '[' ↔ token = .mark '[' := by
  constructor
  · rintro rfl
    cases symbol
    rfl
  · rintro rfl
    rw [symbol?] at symbol
    split at symbol
    · cases symbol
    · split at symbol
      · cases symbol
      · split at symbol <;> cases symbol
        rfl

theorem word_ne_mark (chars : List Char) (c : Char) : word chars ≠ .mark c := by
  rw [word]
  split
  · nofun
  · split <;> nofun

theorem lex_cons {c : Char} (other : c ≠ '=') (rest : List Char) :
    lex (c :: rest) =
      if isNameStart c then
        (lex (rest.dropWhile isNamePart)).map (word (c :: rest.takeWhile isNamePart) :: ·)
      else if Text.isBlank c then lex rest
      else (symbol? c).bind fun token => (lex rest).map (token :: ·) := by
  rw [lex]
  rintro later ⟨⟩
  exact absurd rfl other

theorem lex_name {name behind : List Char} (isName : IsName name) (ends : EndsName behind) :
    lex (name ++ behind) = (lex behind).map (word name :: ·) := by
  cases name with
  | nil => exact isName.elim
  | cons c rest =>
      have noArrow : c ≠ '=' := ne_of_isNamePart (isNamePart_of_isNameStart isName.1) (by decide)
      rw [List.cons_append, lex_cons noArrow, if_pos isName.1,
        takeWhile_append_of_endsName isName.2 ends, dropWhile_append_of_endsName isName.2 ends]

theorem lex_blank {c : Char} (blank : Text.isBlank c = true) (rest : List Char) :
    lex (c :: rest) = lex rest := by
  have noArrow : c ≠ '=' := by
    rintro rfl
    exact absurd blank (by decide)
  have noName : isNameStart c = false := isNameStart_of_isMark (isMark_of_isBlank blank)
  rw [lex_cons noArrow, if_neg (by simp [noName]), if_pos blank]

theorem lex_symbol {c : Char} {token : Token} (symbol : symbol? c = some token)
    (rest : List Char) : lex (c :: rest) = (lex rest).map (token :: ·) := by
  rcases symbol?_plain symbol with ⟨marks, _, visible, noArrow, _, _⟩
  rw [lex_cons noArrow, if_neg (by simp [isNameStart_of_isMark marks]),
    if_neg (by simp [visible]), symbol, Option.bind_some]

/-- A text that has these tokens, taken apart from its front. -/
inductive Lexes : List Char → List Token → Prop
  | nil : Lexes [] []
  | blank (isBlank : Text.isBlank c = true) (later : Lexes rest tokens) : Lexes (c :: rest) tokens
  | name (isName : IsName name) (ends : EndsName behind) (later : Lexes behind tokens) :
      Lexes (name ++ behind) (word name :: tokens)
  | arrow (later : Lexes rest tokens) : Lexes ('=' :: '>' :: rest) (.arrow :: tokens)
  | symbol (symbol : symbol? c = some token) (later : Lexes rest tokens) :
      Lexes (c :: rest) (token :: tokens)

theorem lexes_of_lex {chars : List Char} {tokens : List Token} (lexed : lex chars = some tokens) :
    Lexes chars tokens := by
  fun_induction lex chars generalizing tokens with
  | case1 =>
      cases lexed
      exact .nil
  | case2 rest induction =>
      rcases Option.map_eq_some_iff.mp lexed with ⟨later, found, rfl⟩
      exact .arrow (induction found)
  | case3 c rest _ starts induction =>
      rcases Option.map_eq_some_iff.mp lexed with ⟨later, found, rfl⟩
      have split := List.takeWhile_append_dropWhile (p := isNamePart) (l := rest)
      have isName : IsName (c :: rest.takeWhile isNamePart) :=
        ⟨starts, fun _ => List.mem_takeWhile_imp⟩
      have whole := Lexes.name isName (endsName_dropWhile rest) (induction found)
      rwa [List.cons_append, split] at whole
  | case4 c rest _ noName isBlank induction => exact .blank isBlank (induction lexed)
  | case5 c rest _ noName noBlank induction =>
      rcases Option.bind_eq_some_iff.mp lexed with ⟨token, found, lexedLater⟩
      rcases Option.map_eq_some_iff.mp lexedLater with ⟨later, foundLater, rfl⟩
      exact .symbol found (induction foundLater)

namespace Lexes

variable {first second chars : List Char} {firstTokens secondTokens tokens : List Token}

theorem lex_eq (lexes : Lexes chars tokens) : lex chars = some tokens := by
  induction lexes with
  | nil => rw [lex]
  | blank isBlank _ induction => rw [lex_blank isBlank, induction]
  | name isName ends _ induction => rw [lex_name isName ends, induction, Option.map_some]
  | arrow _ induction => rw [lex, induction, Option.map_some]
  | symbol symbol _ induction => rw [lex_symbol symbol, induction, Option.map_some]

theorem append (lexes : Lexes first firstTokens) (ends : EndsName second)
    (later : Lexes second secondTokens) :
    Lexes (first ++ second) (firstTokens ++ secondTokens) := by
  induction lexes with
  | nil => exact later
  | blank isBlank _ induction => exact .blank isBlank induction
  | @name name behind tokens isName nameEnds _ induction =>
      rw [List.append_assoc]
      refine .name isName ?_ induction
      cases behind with
      | nil => exact ends
      | cons c behind => exact nameEnds
  | arrow _ induction => exact .arrow induction
  | symbol symbol _ induction => exact .symbol symbol induction

/-- The character that comes next tells if an opening bracket is the next token. -/
theorem nextVisible?_eq_bracket (lexes : Lexes chars tokens) :
    Text.nextVisible? chars = some '[' ↔ tokens.head? = some (.mark '[') := by
  have visible : ∀ {c : Char} {rest : List Char}, Text.isBlank c = false →
      Text.nextVisible? (c :: rest) = some c := by
    intro c rest notBlank
    simp [Text.nextVisible?, Text.trimStart, notBlank]
  induction lexes with
  | nil => simp [Text.nextVisible?, Text.trimStart]
  | blank isBlank _ induction =>
      rw [Text.nextVisible?, Text.trimStart, List.dropWhile_cons, if_pos isBlank]
      exact induction
  | @name name behind tokens isName ends _ induction =>
      cases name with
      | nil => exact isName.elim
      | cons c name =>
          have part := isNamePart_of_isNameStart isName.1
          have noBracket : c ≠ '[' := ne_of_isNamePart part (by decide)
          rw [List.cons_append, visible (isBlank_of_isNamePart part), List.head?_cons]
          simp [noBracket, word_ne_mark]
  | arrow _ induction => simp [visible (by decide : Text.isBlank '=' = false)]
  | @symbol c token rest tokens symbol _ induction =>
      rw [visible (symbol?_plain symbol).2.2.1, List.head?_cons, Option.some.injEq,
        Option.some.injEq, symbol?_eq_bracket symbol]

end Lexes

end MemberStubs.TypeGrammar
