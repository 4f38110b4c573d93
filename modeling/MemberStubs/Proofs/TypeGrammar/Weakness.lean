import Mathlib.Data.Bool.AllAny
import MemberStubs.TypeText.Operators
import MemberStubs.Proofs.TypeGrammar.Lexer

/-! The test for parentheses asks if an operator weaker than `keyof` stands at the top of a text. It
sees the characters only, and yet it is right about every text that has a form. -/

namespace MemberStubs

namespace TypeText

def Place.isWeak (place : Place) : Bool :=
  place.isTopArrow || place.isTop && ['|', '&', '?'].contains place.char

def turns : List Char :=
  ['(', '<', '[', '\x7b', ')', '>', ']', '\x7d', '|', '&', '?']

section

variable {depth : Int} {previous : Option Char}

/-- A character that neither opens nor closes anything and is no operator. -/
theorem any_isWeak_cons {c : Char} (plain : c ∉ turns) (rest : List Char) :
    (placesFrom depth previous (c :: rest)).any Place.isWeak =
      (placesFrom depth (some c) rest).any Place.isWeak := by
  simp only [turns, List.mem_cons, List.not_mem_nil, not_or] at plain
  simp [placesFrom, depthAfter, Place.isWeak, Place.isTopArrow, plain]

theorem notMem_turns_of_isNamePart {c : Char} (part : isNamePart c = true) : c ∉ turns := by
  have noParts : ∀ mark ∈ turns, isNamePart mark = false :=
    List.all_iff_forall_prop.mp (by decide)
  intro member
  exact ne_of_isNamePart part (noParts c member) rfl

theorem notMem_turns_of_isBlank {c : Char} (blank : Text.isBlank c = true) : c ∉ turns := by
  have visible : ∀ mark ∈ turns, Text.isBlank mark = false :=
    List.all_iff_forall_prop.mp (by decide)
  intro member
  rw [visible c member] at blank
  cases blank

theorem any_isWeak_name {name : List Char} (parts : ∀ c ∈ name, isNamePart c = true)
    (noEquals : previous ≠ some '=') (behind : List Char) :
    ∃ last, last ≠ some '=' ∧
      (placesFrom depth previous (name ++ behind)).any Place.isWeak =
        (placesFrom depth last behind).any Place.isWeak := by
  induction name generalizing previous with
  | nil => exact ⟨previous, noEquals, rfl⟩
  | cons c name induction =>
      have part := parts c (List.mem_cons_self ..)
      have next : some c ≠ some '=' := by
        simpa using ne_of_isNamePart part (by decide)
      rcases induction (fun d member => parts d (List.mem_cons_of_mem _ member)) next with
        ⟨last, lastNoEquals, same⟩
      refine ⟨last, lastNoEquals, ?_⟩
      rw [List.cons_append, any_isWeak_cons (notMem_turns_of_isNamePart part), same]

end

end TypeText

namespace TypeGrammar

open TypeText

/-! ## Tokens at the top -/

def Token.isWeak : Token → Bool
  | .arrow => true
  | .operator _ => true
  | .mark c => c = '?'
  | _ => false

/-- By how much a token changes the depth. -/
def Token.turn : Token → Int
  | .mark c =>
      if ['(', '<', '['].contains c then 1
      else if [')', '>', ']'].contains c then -1
      else 0
  | _ => 0

def weakFrom (depth : Int) : List Token → Bool
  | [] => false
  | token :: rest => decide (depth = 0) && token.isWeak || weakFrom (depth + token.turn) rest

def brackets : List (Char × Char) :=
  [('(', ')'), ('<', '>'), ('[', ']')]

section

variable (depth : Int) (rest : List Token)

@[simp] theorem weakFrom_name (chars : List Char) :
    weakFrom depth (.name chars :: rest) = weakFrom depth rest := by
  simp [weakFrom, Token.isWeak, Token.turn]

@[simp] theorem weakFrom_keyof : weakFrom depth (.keyof :: rest) = weakFrom depth rest := by
  simp [weakFrom, Token.isWeak, Token.turn]

@[simp] theorem weakFrom_extends : weakFrom depth (.extends :: rest) = weakFrom depth rest := by
  simp [weakFrom, Token.isWeak, Token.turn]

@[simp] theorem weakFrom_operator (operator : Operator) :
    weakFrom depth (.operator operator :: rest) = (decide (depth = 0) || weakFrom depth rest) := by
  simp [weakFrom, Token.isWeak, Token.turn]

@[simp] theorem weakFrom_arrow :
    weakFrom depth (.arrow :: rest) = (decide (depth = 0) || weakFrom depth rest) := by
  simp [weakFrom, Token.isWeak, Token.turn]

@[simp] theorem weakFrom_mark (c : Char) :
    weakFrom depth (.mark c :: rest) =
      (decide (depth = 0) && decide (c = '?') || weakFrom (depth + Token.turn (.mark c)) rest) :=
  rfl

/-- Nothing between two brackets is at the top. -/
theorem weakFrom_between {opening closing : Char}
    (pair : (opening, closing) ∈ brackets) {inside : List Token}
    (hidden : ∀ rest, weakFrom (depth + 1) (inside ++ rest) = weakFrom (depth + 1) rest) :
    weakFrom depth (.mark opening :: (inside ++ .mark closing :: rest)) = weakFrom depth rest := by
  have turns : ∀ pair ∈ brackets, pair.1 ≠ '?' ∧ Token.turn (.mark pair.1) = 1 ∧
      pair.2 ≠ '?' ∧ Token.turn (.mark pair.2) = -1 := by decide
  rcases turns _ pair with ⟨opens, down, closes, up⟩
  rw [weakFrom_mark, decide_eq_false opens, down, hidden, weakFrom_mark, decide_eq_false closes, up,
    Int.add_neg_cancel_right]
  simp

theorem weakFrom_word (chars : List Char) :
    weakFrom depth (word chars :: rest) = weakFrom depth rest := by
  rw [word]
  split
  · exact weakFrom_keyof ..
  · split
    · exact weakFrom_extends ..
    · exact weakFrom_name ..

end

theorem isWeak_symbol {c : Char} {token : Token} (symbol : symbol? c = some token) (depth : Int) :
    Place.isWeak ⟨c, depth, false⟩ = (decide (depth = 0) && token.isWeak) ∧
      depthAfter ⟨c, depth, false⟩ = depth + token.turn := by
  have known := symbol?_cases symbol
  simp only [List.mem_cons, List.not_mem_nil, or_false] at known
  rcases known with rfl | rfl | rfl | rfl | rfl | rfl | rfl | rfl | rfl | rfl | rfl <;>
    cases symbol <;>
      simp [Place.isWeak, Place.isTopArrow, Place.isTop, depthAfter, Token.isWeak, Token.turn,
        Int.sub_eq_add_neg]

/-- An angle is an arrow when it stands right behind an equals sign, which is no token otherwise. -/
theorem Lexes.any_isWeak {chars : List Char} {tokens : List Token} (lexes : Lexes chars tokens)
    (depth : Int) {previous : Option Char} (noEquals : previous ≠ some '=') :
    (placesFrom depth previous chars).any Place.isWeak = weakFrom depth tokens := by
  induction lexes generalizing depth previous with
  | nil => rfl
  | @blank c rest tokens isBlank _ induction =>
      have next : some c ≠ some '=' := by
        rintro ⟨⟩
        exact absurd isBlank (by decide)
      rw [any_isWeak_cons (notMem_turns_of_isBlank isBlank), induction depth next]
  | @name name behind tokens isName _ _ induction =>
      rcases any_isWeak_name isName.isNamePart noEquals behind with
        ⟨last, lastNoEquals, same⟩
      rw [same, induction depth lastNoEquals, weakFrom_word]
  | @arrow rest tokens _ induction =>
      have next : some '>' ≠ some '=' := by decide
      rw [any_isWeak_cons (by decide), placesFrom, List.any_cons]
      simp [depthAfter, Place.isWeak, Place.isTopArrow, Place.isTop, weakFrom, Token.isWeak,
        Token.turn, induction depth next]
  | @symbol c token rest tokens symbol _ induction =>
      have next : some c ≠ some '=' := by simpa using (symbol?_plain symbol).2.2.2.1
      have noArrow : (decide (c = '>') && decide (previous = some '=')) = false := by
        simp [noEquals]
      rcases isWeak_symbol symbol depth with ⟨weak, after⟩
      rw [placesFrom, noArrow, List.any_cons, induction _ next, weak, after, weakFrom]

/-! ## Forms at the top -/

def Form.isWeak (form : Form) : Bool :=
  form.rank ≤ 2

theorem Form.isWeak_eq_false {form : Form} (strong : 3 ≤ form.rank) : form.isWeak = false := by
  rw [isWeak, decide_eq_false_iff_not]
  omega

theorem weakFrom_label {group : Group} (label : Label group) {depth : Int} (inside : depth ≠ 0)
    (rest : List Token) : weakFrom depth (label.tokens ++ rest) = weakFrom depth rest := by
  cases label with
  | argument => rfl
  | parameter name => simp [Label.tokens, inside, Token.turn]

mutual
theorem Form.weakFrom_tokens : (form : Form) → form.WellFormed → {depth : Int} → 0 ≤ depth →
    (rest : List Token) →
    weakFrom depth (form.tokens ++ rest) =
      (decide (depth = 0) && form.isWeak || weakFrom depth rest)
  | .name chars, _, depth, _, rest => by
      have strong : (Form.name chars).isWeak = false := rfl
      simp [Form.tokens, strong]
  | .generic head arguments, wellFormed, depth, nonneg, rest => by
      have strong : (Form.generic head arguments).isWeak = false := rfl
      have inside := arguments.weakFrom_tokens wellFormed (by omega : 0 < depth + 1)
      have whole := weakFrom_between depth rest (by decide : ('<', '>') ∈ brackets) inside
      simpa [Form.tokens, strong] using whole
  | .enclosed inside, wellFormed, depth, nonneg, rest => by
      have strong : (Form.enclosed inside).isWeak = false := rfl
      have below := inside.weakFrom_hidden wellFormed nonneg
      have whole := weakFrom_between depth rest (by decide : ('(', ')') ∈ brackets) below
      simpa [Form.tokens, strong] using whole
  | .array element, wellFormed, depth, nonneg, rest => by
      have strong : (Form.array element).isWeak = false := rfl
      have operand := Form.isWeak_eq_false (Nat.le_of_succ_le wellFormed.2)
      have here := element.weakFrom_tokens wellFormed.1 nonneg
      have empty : ∀ rest, weakFrom (depth + 1) ([] ++ rest) = weakFrom (depth + 1) rest :=
        fun _ => rfl
      have behind := weakFrom_between depth rest (by decide : ('[', ']') ∈ brackets) empty
      rw [List.nil_append] at behind
      simpa [Form.tokens, here, operand, strong] using behind
  | .index object key, wellFormed, depth, nonneg, rest => by
      have strong : (Form.index object key).isWeak = false := rfl
      have operand := Form.isWeak_eq_false (Nat.le_of_succ_le wellFormed.2.1)
      have here := object.weakFrom_tokens wellFormed.1 nonneg
      have below := key.weakFrom_hidden wellFormed.2.2 nonneg
      have behind := weakFrom_between depth rest (by decide : ('[', ']') ∈ brackets) below
      simpa [Form.tokens, here, operand, strong] using behind
  | .keyof operand, wellFormed, depth, nonneg, rest => by
      have strong : (Form.keyof operand).isWeak = false := rfl
      have operandStrong := Form.isWeak_eq_false wellFormed.2
      have here := operand.weakFrom_tokens wellFormed.1 nonneg
      simp [Form.tokens, here, operandStrong, strong]
  | .chain operator left right, wellFormed, depth, nonneg, rest => by
      have weak : (Form.chain operator left right).isWeak = true := by cases operator <;> rfl
      have here := left.weakFrom_tokens wellFormed.1.1 nonneg
      have behind := right.weakFrom_tokens wellFormed.2.1 nonneg
      simp only [Form.tokens, List.append_assoc, List.cons_append, weakFrom_operator, here, behind,
        weak]
      cases decide (depth = 0) <;> simp
  | .function parameters result, wellFormed, depth, nonneg, rest => by
      have weak : (Form.function parameters result).isWeak = true := rfl
      have inside := parameters.weakFrom_tokens wellFormed.1 (by omega : 0 < depth + 1)
      have behind := result.weakFrom_tokens wellFormed.2 nonneg rest
      have whole := weakFrom_between depth (.arrow :: (result.tokens ++ rest))
        (by decide : ('(', ')') ∈ brackets) inside
      rw [weakFrom_arrow, behind] at whole
      simp only [Form.tokens, List.append_assoc, List.cons_append, whole, weak]
      cases decide (depth = 0) <;> simp
  | .conditional checked bound yes no, wellFormed, depth, nonneg, rest => by
      have weak : (Form.conditional checked bound yes no).isWeak = true := rfl
      rcases wellFormed with ⟨⟨checkedForm, _⟩, ⟨boundForm, _⟩, yesForm, noForm⟩
      have first := checked.weakFrom_tokens checkedForm nonneg
      have second := bound.weakFrom_tokens boundForm nonneg
      have third := yes.weakFrom_tokens yesForm nonneg
      have fourth := no.weakFrom_tokens noForm nonneg
      have flat : Token.turn (.mark '?') = 0 ∧ Token.turn (.mark ':') = 0 := by decide
      simp only [Form.tokens, List.append_assoc, List.cons_append, weakFrom_mark, weakFrom_extends,
        flat, Int.add_zero, first, second, third, fourth, weak]
      cases decide (depth = 0) <;> simp

theorem Form.weakFrom_hidden (form : Form) (wellFormed : form.WellFormed) {depth : Int}
    (nonneg : 0 ≤ depth) (rest : List Token) :
    weakFrom (depth + 1) (form.tokens ++ rest) = weakFrom (depth + 1) rest := by
  have below := form.weakFrom_tokens wellFormed (by omega : 0 ≤ depth + 1) rest
  have notTop : depth + 1 ≠ 0 := by omega
  rw [below, decide_eq_false notTop, Bool.false_and, Bool.false_or]

theorem Forms.weakFrom_tokens {group : Group} : (forms : Forms group) → forms.WellFormed →
    {depth : Int} → 0 < depth → (rest : List Token) →
    weakFrom depth (forms.tokens ++ rest) = weakFrom depth rest
  | .nil, _, _, _, _ => rfl
  | .cons label form later, wellFormed, depth, positive, rest => by
      have inside : depth ≠ 0 := by omega
      have here := form.weakFrom_tokens wellFormed.1 (by omega : 0 ≤ depth)
      have behind := later.weakFrom_tokens wellFormed.2 positive rest
      rw [Forms.tokens, List.append_assoc, weakFrom_label label inside, List.append_assoc, here]
      cases later.isNil <;> simp [inside, Token.turn, behind]
end

/-- What a text parses to settles the test for parentheses. -/
theorem Parses.needsParentheses_eq {text : String} {form : Form} (parses : Parses text form) :
    needsParentheses text.toList = form.isWeak := by
  have scanned := (lexes_of_lex parses.2).any_isWeak 0 (by decide : none ≠ some '=')
  have whole := form.weakFrom_tokens parses.1 (Int.le_refl 0) []
  rw [List.append_nil] at whole
  rw [needsParentheses, places]
  exact (scanned.trans whole).trans (by simp [weakFrom])

end TypeGrammar

end MemberStubs
