import MemberStubs.Proofs.TypeGrammar.Chain
import MemberStubs.Proofs.TypeGrammar.Weakness

/-! Forms in the place of the names at the leaves of a form. In the tree they simply take those
places; in a text parentheses are put around a weak one, if a bracket comes next. -/

namespace MemberStubs.TypeGrammar

/-! ## Leaves -/

/-- A name that is a type of its own, with the rank that an operand in its place needs. -/
structure Leaf where
  name : List Char
  rank : Nat
  beforeBracket : Bool
  deriving DecidableEq

mutual
def Form.leaves (rank : Nat) (beforeBracket : Bool) : Form → List Leaf
  | .name chars => [⟨chars, rank, beforeBracket⟩]
  | .generic _ arguments => arguments.leaves
  | .enclosed inside => inside.leaves 0 false
  | .array element => element.leaves 4 true
  | .index object key => object.leaves 4 true ++ key.leaves 0 false
  | .keyof operand => operand.leaves 3 false
  | .chain operator left right =>
      left.leaves operator.rank false ++ right.leaves operator.rank false
  | .function parameters result => parameters.leaves ++ result.leaves 0 false
  | .conditional checked bound yes no =>
      checked.leaves 1 false ++ bound.leaves 1 false ++ yes.leaves 0 false ++ no.leaves 0 false

def Forms.leaves : Forms group → List Leaf
  | .nil => []
  | .cons _ form later => form.leaves 0 false ++ later.leaves
end

def Label.heads : Label group → List (List Char)
  | .argument => []
  | .parameter name => [name]

mutual
/-- The names that are no types of their own: they take arguments or name a parameter. -/
def Form.heads : Form → List (List Char)
  | .name _ => []
  | .generic head arguments => head :: arguments.heads
  | .enclosed inside => inside.heads
  | .array element => element.heads
  | .index object key => object.heads ++ key.heads
  | .keyof operand => operand.heads
  | .chain _ left right => left.heads ++ right.heads
  | .function parameters result => parameters.heads ++ result.heads
  | .conditional checked bound yes no => checked.heads ++ bound.heads ++ yes.heads ++ no.heads

def Forms.heads : Forms group → List (List Char)
  | .nil => []
  | .cons label form later => label.heads ++ form.heads ++ later.heads
end

/-! ## Replacements -/

/-- A form where a bracket may come next. -/
def Form.shield (beforeBracket : Bool) (form : Form) : Form :=
  if beforeBracket && form.isWeak then .enclosed form else form

section

variable (argument : List Char → Form)

mutual
/-- Every leaf makes way for the form of its name. -/
def Form.replace : Form → Form
  | .name chars => argument chars
  | .generic head arguments => .generic head arguments.replace
  | .enclosed inside => .enclosed inside.replace
  | .array element => .array element.replace
  | .index object key => .index object.replace key.replace
  | .keyof operand => .keyof operand.replace
  | .chain operator left right => .chain operator left.replace right.replace
  | .function parameters result => .function parameters.replace result.replace
  | .conditional checked bound yes no =>
      .conditional checked.replace bound.replace yes.replace no.replace

def Forms.replace : Forms group → Forms group
  | .nil => .nil
  | .cons label form later => .cons label form.replace later.replace
end

mutual
/-- The same with parentheses around what is weak and stands before a bracket. -/
def Form.insert (beforeBracket : Bool) : Form → Form
  | .name chars => (argument chars).shield beforeBracket
  | .generic head arguments => .generic head arguments.insert
  | .enclosed inside => .enclosed (inside.insert false)
  | .array element => .array (element.insert true)
  | .index object key => .index (object.insert true) (key.insert false)
  | .keyof operand => .keyof (operand.insert false)
  | .chain operator left right => .chain operator (left.insert false) (right.insert false)
  | .function parameters result => .function parameters.insert (result.insert false)
  | .conditional checked bound yes no =>
      .conditional (checked.insert false) (bound.insert false) (yes.insert false) (no.insert false)

def Forms.insert : Forms group → Forms group
  | .nil => .nil
  | .cons label form later => .cons label (form.insert false) later.insert
end

@[simp] theorem Forms.isNil_insert (forms : Forms group) :
    (forms.insert argument).isNil = forms.isNil := by
  cases forms <;> rfl

theorem Form.plain_shield (beforeBracket : Bool) (form : Form) :
    (form.shield beforeBracket).plain = form.plain := by
  rw [shield]
  split <;> rfl

mutual
theorem Form.plain_insert : (form : Form) → (beforeBracket : Bool) →
    (form.insert argument beforeBracket).plain = (form.replace argument).plain
  | .name chars, beforeBracket => Form.plain_shield beforeBracket (argument chars)
  | .generic head arguments, _ => by
      simp [Form.insert, Form.replace, Form.plain, arguments.plain_insert]
  | .enclosed inside, _ => by simp [Form.insert, Form.replace, Form.plain, inside.plain_insert]
  | .array element, _ => by simp [Form.insert, Form.replace, Form.plain, element.plain_insert]
  | .index object key, _ => by
      simp [Form.insert, Form.replace, Form.plain, object.plain_insert, key.plain_insert]
  | .keyof operand, _ => by simp [Form.insert, Form.replace, Form.plain, operand.plain_insert]
  | .chain operator left right, _ => by
      simp [Form.insert, Form.replace, Form.plain, left.plain_insert, right.plain_insert]
  | .function parameters result, _ => by
      simp [Form.insert, Form.replace, Form.plain, parameters.plain_insert, result.plain_insert]
  | .conditional checked bound yes no, _ => by
      simp [Form.insert, Form.replace, Form.plain, checked.plain_insert, bound.plain_insert,
        yes.plain_insert, no.plain_insert]

theorem Forms.plain_insert {group : Group} : (forms : Forms group) →
    (forms.insert argument).plain = (forms.replace argument).plain
  | .nil => rfl
  | .cons label form later => by
      simp [Forms.insert, Forms.replace, Forms.plain, form.plain_insert, later.plain_insert]
end

end

/-! ## Ranks of replacements -/

/-- An operand is tight enough for the operator around it, or it gets parentheses. -/
def Leaf.Fits (leaf : Leaf) (form : Form) : Prop :=
  leaf.rank ≤ form.rank ∨ leaf.beforeBracket = true ∧ form.isWeak = true

instance (leaf : Leaf) (form : Form) : Decidable (leaf.Fits form) :=
  inferInstanceAs (Decidable (_ ∨ _))

section

variable {argument : List Char → Form}

theorem Form.wellFormed_shield {form : Form} (beforeBracket : Bool) (wellFormed : form.WellFormed) :
    (form.shield beforeBracket).WellFormed := by
  rw [shield]
  split <;> exact wellFormed

theorem Form.le_rank_shield {rank : Nat} (bound : rank ≤ 4) {form : Form} (beforeBracket : Bool) :
    rank ≤ (form.shield beforeBracket).rank ↔
      rank ≤ form.rank ∨ beforeBracket = true ∧ form.isWeak = true := by
  rw [shield]
  split
  · next both => exact iff_of_true bound (.inr ((Bool.and_eq_true ..).mp both))
  · next notBoth => simp_all

mutual
theorem Form.wellFormed_insert (forms : ∀ name, (argument name).WellFormed) : (form : Form) →
    form.WellFormed → {rank : Nat} → rank ≤ form.rank → (beforeBracket : Bool) →
    ((form.insert argument beforeBracket).WellFormed ∧
        rank ≤ (form.insert argument beforeBracket).rank ↔
      ∀ leaf ∈ form.leaves rank beforeBracket, leaf.Fits (argument leaf.name))
  | .name chars, _, rank, bound, beforeBracket => by
      simp [Form.insert, Form.leaves, Leaf.Fits, Form.le_rank_shield bound,
        Form.wellFormed_shield beforeBracket (forms chars)]
  | .generic head arguments, wellFormed, rank, bound, beforeBracket => by
      have inside := arguments.wellFormed_insert forms wellFormed
      simp only [Form.insert, Form.leaves, Form.WellFormed, ← inside]
      exact and_iff_left bound
  | .enclosed inside, wellFormed, rank, bound, beforeBracket => by
      have below := inside.wellFormed_insert forms wellFormed (Nat.zero_le _) false
      simp only [Form.insert, Form.leaves, Form.WellFormed, ← below, Nat.zero_le, and_true]
      exact and_iff_left bound
  | .array element, wellFormed, rank, bound, beforeBracket => by
      have here := element.wellFormed_insert forms wellFormed.1 wellFormed.2 true
      simp only [Form.insert, Form.leaves, Form.WellFormed, ← here]
      exact and_iff_left bound
  | .index object key, wellFormed, rank, bound, beforeBracket => by
      have here := object.wellFormed_insert forms wellFormed.1 wellFormed.2.1 true
      have inside := key.wellFormed_insert forms wellFormed.2.2 (Nat.zero_le _) false
      simp only [Form.insert, Form.leaves, Form.WellFormed, List.forall_mem_append, ← here,
        ← inside, Nat.zero_le, and_true]
      exact (and_iff_left bound).trans and_assoc.symm
  | .keyof operand, wellFormed, rank, bound, beforeBracket => by
      have here := operand.wellFormed_insert forms wellFormed.1 wellFormed.2 false
      simp only [Form.insert, Form.leaves, Form.WellFormed, ← here]
      exact and_iff_left bound
  | .chain operator left right, wellFormed, rank, bound, beforeBracket => by
      have here := left.wellFormed_insert forms wellFormed.1.1 wellFormed.1.2 false
      have behind := right.wellFormed_insert forms wellFormed.2.1 wellFormed.2.2 false
      simp only [Form.insert, Form.leaves, Form.WellFormed, List.forall_mem_append, ← here,
        ← behind]
      exact and_iff_left bound
  | .function parameters result, wellFormed, rank, bound, beforeBracket => by
      have inside := parameters.wellFormed_insert forms wellFormed.1
      have behind := result.wellFormed_insert forms wellFormed.2 (Nat.zero_le _) false
      simp only [Form.insert, Form.leaves, Form.WellFormed, List.forall_mem_append, ← inside,
        ← behind, Nat.zero_le, and_true]
      exact and_iff_left bound
  | .conditional checked bound yes no, wellFormed, rank, rankBound, beforeBracket => by
      rcases wellFormed with ⟨⟨checkedForm, checkedRank⟩, ⟨boundForm, boundRank⟩, yesForm, noForm⟩
      have first := checked.wellFormed_insert forms checkedForm checkedRank false
      have second := bound.wellFormed_insert forms boundForm boundRank false
      have third := yes.wellFormed_insert forms yesForm (Nat.zero_le _) false
      have fourth := no.wellFormed_insert forms noForm (Nat.zero_le _) false
      simp only [Form.insert, Form.leaves, Form.WellFormed, List.forall_mem_append, ← first,
        ← second, ← third, ← fourth, Nat.zero_le, and_true]
      exact (and_iff_left rankBound).trans (by simp only [and_assoc])

theorem Forms.wellFormed_insert {group : Group} (forms : ∀ name, (argument name).WellFormed) :
    (items : Forms group) → items.WellFormed →
    ((items.insert argument).WellFormed ↔
      ∀ leaf ∈ items.leaves, leaf.Fits (argument leaf.name))
  | .nil, _ => by simp [Forms.insert, Forms.leaves, Forms.WellFormed]
  | .cons label form later, wellFormed => by
      have here := form.wellFormed_insert forms wellFormed.1 (Nat.zero_le _) false
      have behind := later.wellFormed_insert forms wellFormed.2
      simp only [Forms.insert, Forms.leaves, Forms.WellFormed, List.forall_mem_append, ← here,
        ← behind, Nat.zero_le, and_true]
end

end

/-! ## Tokens of replacements -/

def Token.insert (argument : List Char → Form) (beforeBracket : Bool) : Token → List Token
  | .name chars => ((argument chars).shield beforeBracket).tokens
  | token => [token]

def insertTokens (argument : List Char → Form) : List Token → List Token
  | [] => []
  | token :: rest =>
      token.insert argument (rest.head? = some (.mark '[')) ++ insertTokens argument rest

section

variable {argument : List Char → Form}

theorem Token.insert_symbol {c : Char} {token : Token} (symbol : symbol? c = some token)
    (beforeBracket : Bool) : token.insert argument beforeBracket = [token] := by
  have known := symbol?_cases symbol
  simp only [List.mem_cons, List.not_mem_nil, or_false] at known
  rcases known with rfl | rfl | rfl | rfl | rfl | rfl | rfl | rfl | rfl | rfl | rfl <;>
    cases symbol <;> rfl

theorem insertTokens_head {head : List Char} (fixed : argument head = .name head)
    (rest : List Token) :
    insertTokens argument (.name head :: rest) = .name head :: insertTokens argument rest := by
  have strong : (Form.name head).isWeak = false := rfl
  simp [insertTokens, Token.insert, fixed, Form.shield, strong, Form.tokens]

theorem insertTokens_label {group : Group} (label : Label group)
    (fixed : ∀ head ∈ label.heads, argument head = .name head) (rest : List Token) :
    insertTokens argument (label.tokens ++ rest) = label.tokens ++ insertTokens argument rest := by
  cases label with
  | argument => rfl
  | parameter name =>
      exact insertTokens_head (fixed name (List.mem_singleton_self name)) (.mark ':' :: rest)

mutual
theorem Form.insertTokens_tokens : (form : Form) → form.WellFormed →
    (∀ head ∈ form.heads, argument head = .name head) → (rest : List Token) →
    (rest.head? = some (.mark '[') → 4 ≤ form.rank) →
    insertTokens argument (form.tokens ++ rest) =
      (form.insert argument (rest.head? = some (.mark '['))).tokens ++ insertTokens argument rest
  | .name chars, _, _, rest, _ => rfl
  | .generic head arguments, wellFormed, fixed, rest, _ => by
      have here := insertTokens_head (fixed head (List.mem_cons_self ..))
      have inside := arguments.insertTokens_tokens wellFormed
        (fun other member => fixed other (List.mem_cons_of_mem _ member)) (.mark '>' :: rest)
        (by simp)
      simp [Form.tokens, Form.insert, here, insertTokens, Token.insert, inside]
  | .enclosed inside, wellFormed, fixed, rest, _ => by
      have below := inside.insertTokens_tokens wellFormed fixed (.mark ')' :: rest) (by simp)
      simp [Form.tokens, Form.insert, insertTokens, Token.insert, below]
  | .array element, wellFormed, fixed, rest, _ => by
      have here := element.insertTokens_tokens wellFormed.1 fixed (.mark '[' :: .mark ']' :: rest)
        fun _ => wellFormed.2
      simp [Form.tokens, Form.insert, insertTokens, Token.insert, here]
  | .index object key, wellFormed, fixed, rest, _ => by
      rcases List.forall_mem_append.mp fixed with ⟨objectFixed, keyFixed⟩
      have here := object.insertTokens_tokens wellFormed.1 objectFixed
        (.mark '[' :: (key.tokens ++ .mark ']' :: rest)) fun _ => wellFormed.2.1
      have inside := key.insertTokens_tokens wellFormed.2.2 keyFixed (.mark ']' :: rest) (by simp)
      simp [Form.tokens, Form.insert, insertTokens, Token.insert, here, inside]
  | .keyof operand, wellFormed, fixed, rest, ends => by
      -- A bracket behind an operand would be a suffix of the operand alone.
      have apart : rest.head? ≠ some (.mark '[') :=
        fun next => absurd (ends next) (by simp [Form.rank])
      have here := operand.insertTokens_tokens wellFormed.1 fixed rest fun next =>
        absurd next apart
      simp [Form.tokens, Form.insert, insertTokens, Token.insert, here, apart]
  | .chain operator left right, wellFormed, fixed, rest, ends => by
      rcases List.forall_mem_append.mp fixed with ⟨leftFixed, rightFixed⟩
      have apart : rest.head? ≠ some (.mark '[') :=
        fun next => absurd (ends next) (by cases operator <;> simp [Form.rank, Operator.rank])
      have here := left.insertTokens_tokens wellFormed.1.1 leftFixed
        (.operator operator :: (right.tokens ++ rest)) (by simp)
      have behind := right.insertTokens_tokens wellFormed.2.1 rightFixed rest fun next =>
        absurd next apart
      simp [Form.tokens, Form.insert, insertTokens, Token.insert, here, behind, apart]
  | .function parameters result, wellFormed, fixed, rest, ends => by
      rcases List.forall_mem_append.mp fixed with ⟨parametersFixed, resultFixed⟩
      have apart : rest.head? ≠ some (.mark '[') :=
        fun next => absurd (ends next) (by simp [Form.rank])
      have inside := parameters.insertTokens_tokens wellFormed.1 parametersFixed
        (.mark ')' :: .arrow :: (result.tokens ++ rest)) (by simp)
      have behind := result.insertTokens_tokens wellFormed.2 resultFixed rest fun next =>
        absurd next apart
      simp [Form.tokens, Form.insert, insertTokens, Token.insert, inside, behind, apart]
  | .conditional checked bound yes no, wellFormed, fixed, rest, ends => by
      simp only [Form.heads, List.forall_mem_append] at fixed
      rcases fixed with ⟨⟨⟨checkedFixed, boundFixed⟩, yesFixed⟩, noFixed⟩
      rcases wellFormed with ⟨⟨checkedForm, _⟩, ⟨boundForm, _⟩, yesForm, noForm⟩
      have apart : rest.head? ≠ some (.mark '[') :=
        fun next => absurd (ends next) (by simp [Form.rank])
      have fourth := no.insertTokens_tokens noForm noFixed rest fun next => absurd next apart
      have third := yes.insertTokens_tokens yesForm yesFixed
        (.mark ':' :: (no.tokens ++ rest)) (by simp)
      have second := bound.insertTokens_tokens boundForm boundFixed
        (.mark '?' :: (yes.tokens ++ .mark ':' :: (no.tokens ++ rest))) (by simp)
      have first := checked.insertTokens_tokens checkedForm checkedFixed
        (.extends :: (bound.tokens ++ .mark '?' :: (yes.tokens ++ .mark ':' ::
          (no.tokens ++ rest)))) (by simp)
      simp [Form.tokens, Form.insert, insertTokens, Token.insert, first, second, third, fourth,
        apart]

theorem Forms.insertTokens_tokens {group : Group} : (forms : Forms group) → forms.WellFormed →
    (∀ head ∈ forms.heads, argument head = .name head) → (rest : List Token) →
    rest.head? ≠ some (.mark '[') →
    insertTokens argument (forms.tokens ++ rest) =
      (forms.insert argument).tokens ++ insertTokens argument rest
  | .nil, _, _, _, _ => rfl
  | .cons label form later, wellFormed, fixed, rest, apart => by
      simp only [Forms.heads, List.forall_mem_append] at fixed
      rcases fixed with ⟨⟨labelFixed, formFixed⟩, laterFixed⟩
      have behind := later.insertTokens_tokens wellFormed.2 laterFixed rest apart
      rw [Forms.tokens, List.append_assoc, insertTokens_label label labelFixed, List.append_assoc]
      cases last : later.isNil with
      | true =>
          have here := form.insertTokens_tokens wellFormed.1 formFixed rest fun next =>
            absurd next apart
          simp [Forms.insert, Forms.tokens, last, here, apart]
      | false =>
          have here := form.insertTokens_tokens wellFormed.1 formFixed
            (.mark ',' :: (later.tokens ++ rest)) (by simp)
          simp [Forms.insert, Forms.tokens, last, here, insertTokens, Token.insert, behind]
end

end

end MemberStubs.TypeGrammar
