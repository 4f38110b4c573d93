import MemberStubs.Proofs.TypeGrammar.Form

/-! Chains of one operator. Nesting a chain to the right changes neither its tokens nor what it
means, and a chain that is nested so is known by its first link. -/

namespace MemberStubs.TypeGrammar

namespace Form

def isChain (operator : Operator) : Form → Bool
  | .chain other .. => other = operator
  | _ => false

section

variable (operator : Operator) (first later : Form)

theorem join_of_isChain_eq_false {operator : Operator} {first : Form}
    (single : first.isChain operator = false) (later : Form) :
    first.join operator later = .chain operator first later := by
  cases first with
  | chain other left right => simp_all [isChain, join]
  | _ => rfl

theorem tokens_join :
    (first.join operator later).tokens = first.tokens ++ .operator operator :: later.tokens := by
  fun_induction join operator first later with
  | case1 left right induction => simp [tokens, induction]
  | case2 => simp [tokens]
  | case3 => simp [tokens]

theorem join_join (last : Form) :
    (first.join operator later).join operator last =
      first.join operator (later.join operator last) := by
  fun_induction join operator first later with
  | case1 left right induction => simp [join, induction]
  | case2 other left right different => simp [join, different]
  | case3 first noChain =>
      have single : first.isChain operator = false := by
        cases first with
        | chain other left right => exact (noChain other left right rfl).elim
        | _ => rfl
      rw [join, if_pos rfl, join_of_isChain_eq_false single]

theorem plain_join :
    (first.join operator later).plain = first.plain.join operator later.plain := by
  fun_induction join operator first later with
  | case1 left right induction => rw [plain, induction, plain, join_join]
  | case2 => rw [plain]
  | case3 => rw [plain]

theorem isChain_join : (first.join operator later).isChain operator = true := by
  fun_induction join operator first later <;> simp [isChain]

theorem rank_join : (first.join operator later).rank = operator.rank := by
  fun_induction join operator first later <;> rfl

theorem wellFormed_join : (first.join operator later).WellFormed ↔
    (first.WellFormed ∧ operator.rank ≤ first.rank) ∧ later.WellFormed ∧
      operator.rank ≤ later.rank := by
  fun_induction join operator first later with
  | case1 left right induction =>
      rw [WellFormed, induction, rank_join, WellFormed, rank]
      grind
  | case2 => rw [WellFormed]
  | case3 => rw [WellFormed]

end

end Form

/-! ## Chains nested to the right -/

mutual
def Form.chained : Form → Form
  | .name chars => .name chars
  | .generic head arguments => .generic head arguments.chained
  | .enclosed inside => .enclosed inside.chained
  | .array element => .array element.chained
  | .index object key => .index object.chained key.chained
  | .keyof operand => .keyof operand.chained
  | .chain operator left right => left.chained.join operator right.chained
  | .function parameters result => .function parameters.chained result.chained
  | .conditional checked bound yes no =>
      .conditional checked.chained bound.chained yes.chained no.chained

def Forms.chained : Forms group → Forms group
  | .nil => .nil
  | .cons label form later => .cons label form.chained later.chained
end

@[simp] theorem Forms.isNil_chained (forms : Forms group) : forms.chained.isNil = forms.isNil := by
  cases forms <;> rfl

mutual
@[simp] theorem Form.tokens_chained : (form : Form) → form.chained.tokens = form.tokens
  | .name _ => rfl
  | .generic _ arguments => by simp [Form.chained, Form.tokens, arguments.tokens_chained]
  | .enclosed inside => by simp [Form.chained, Form.tokens, inside.tokens_chained]
  | .array element => by simp [Form.chained, Form.tokens, element.tokens_chained]
  | .index object key => by
      simp [Form.chained, Form.tokens, object.tokens_chained, key.tokens_chained]
  | .keyof operand => by simp [Form.chained, Form.tokens, operand.tokens_chained]
  | .chain operator left right => by
      simp [Form.chained, Form.tokens, Form.tokens_join, left.tokens_chained, right.tokens_chained]
  | .function parameters result => by
      simp [Form.chained, Form.tokens, parameters.tokens_chained, result.tokens_chained]
  | .conditional checked bound yes no => by
      simp [Form.chained, Form.tokens, checked.tokens_chained, bound.tokens_chained,
        yes.tokens_chained, no.tokens_chained]

@[simp] theorem Forms.tokens_chained {group : Group} :
    (forms : Forms group) → forms.chained.tokens = forms.tokens
  | .nil => rfl
  | .cons label form later => by
      simp [Forms.chained, Forms.tokens, form.tokens_chained, later.tokens_chained]
end

mutual
@[simp] theorem Form.plain_chained : (form : Form) → form.chained.plain = form.plain
  | .name _ => rfl
  | .generic _ arguments => by simp [Form.chained, Form.plain, arguments.plain_chained]
  | .enclosed inside => by simp [Form.chained, Form.plain, inside.plain_chained]
  | .array element => by simp [Form.chained, Form.plain, element.plain_chained]
  | .index object key => by
      simp [Form.chained, Form.plain, object.plain_chained, key.plain_chained]
  | .keyof operand => by simp [Form.chained, Form.plain, operand.plain_chained]
  | .chain operator left right => by
      simp [Form.chained, Form.plain, Form.plain_join, left.plain_chained, right.plain_chained]
  | .function parameters result => by
      simp [Form.chained, Form.plain, parameters.plain_chained, result.plain_chained]
  | .conditional checked bound yes no => by
      simp [Form.chained, Form.plain, checked.plain_chained, bound.plain_chained,
        yes.plain_chained, no.plain_chained]

@[simp] theorem Forms.plain_chained {group : Group} :
    (forms : Forms group) → forms.chained.plain = forms.plain
  | .nil => rfl
  | .cons label form later => by
      simp [Forms.chained, Forms.plain, form.plain_chained, later.plain_chained]
end

mutual
/-- The first link of a chain is no chain of the same operator. -/
def Form.IsChained : Form → Prop
  | .name _ => True
  | .generic _ arguments => arguments.IsChained
  | .enclosed inside => inside.IsChained
  | .array element => element.IsChained
  | .index object key => object.IsChained ∧ key.IsChained
  | .keyof operand => operand.IsChained
  | .chain operator left right =>
      left.isChain operator = false ∧ left.IsChained ∧ right.IsChained
  | .function parameters result => parameters.IsChained ∧ result.IsChained
  | .conditional checked bound yes no =>
      checked.IsChained ∧ bound.IsChained ∧ yes.IsChained ∧ no.IsChained

def Forms.IsChained : Forms group → Prop
  | .nil => True
  | .cons _ form later => form.IsChained ∧ later.IsChained
end

theorem Form.isChained_join {operator : Operator} {first later : Form}
    (firstChained : first.IsChained) (laterChained : later.IsChained) :
    (first.join operator later).IsChained := by
  fun_induction Form.join operator first later with
  | case1 left right induction =>
      rcases firstChained with ⟨single, leftChained, rightChained⟩
      exact ⟨single, leftChained, induction rightChained⟩
  | case2 other left right different =>
      exact ⟨by simp [Form.isChain, different], firstChained, laterChained⟩
  | case3 first noChain =>
      refine ⟨?_, firstChained, laterChained⟩
      cases first with
      | chain other left right => exact (noChain other left right rfl).elim
      | _ => rfl

mutual
theorem Form.isChained_chained : (form : Form) → form.chained.IsChained
  | .name _ => trivial
  | .generic _ arguments => arguments.isChained_chained
  | .enclosed inside => inside.isChained_chained
  | .array element => element.isChained_chained
  | .index object key => ⟨object.isChained_chained, key.isChained_chained⟩
  | .keyof operand => operand.isChained_chained
  | .chain _ left right => Form.isChained_join left.isChained_chained right.isChained_chained
  | .function parameters result => ⟨parameters.isChained_chained, result.isChained_chained⟩
  | .conditional checked bound yes no =>
      ⟨checked.isChained_chained, bound.isChained_chained, yes.isChained_chained,
        no.isChained_chained⟩

theorem Forms.isChained_chained {group : Group} : (forms : Forms group) → forms.chained.IsChained
  | .nil => trivial
  | .cons _ form later => ⟨form.isChained_chained, later.isChained_chained⟩
end

@[simp] theorem Form.rank_chained (form : Form) : form.chained.rank = form.rank := by
  cases form with
  | chain operator left right => rw [Form.chained, Form.rank_join, Form.rank]
  | _ => rfl

mutual
theorem Form.wellFormed_chained : (form : Form) → (form.chained.WellFormed ↔ form.WellFormed)
  | .name _ => .rfl
  | .generic _ arguments => arguments.wellFormed_chained
  | .enclosed inside => inside.wellFormed_chained
  | .array element => by simp [Form.chained, Form.WellFormed, element.wellFormed_chained]
  | .index object key => by
      simp [Form.chained, Form.WellFormed, object.wellFormed_chained, key.wellFormed_chained]
  | .keyof operand => by simp [Form.chained, Form.WellFormed, operand.wellFormed_chained]
  | .chain operator left right => by
      simp [Form.chained, Form.WellFormed, Form.wellFormed_join, left.wellFormed_chained,
        right.wellFormed_chained]
  | .function parameters result => by
      simp [Form.chained, Form.WellFormed, parameters.wellFormed_chained,
        result.wellFormed_chained]
  | .conditional checked bound yes no => by
      simp [Form.chained, Form.WellFormed, checked.wellFormed_chained, bound.wellFormed_chained,
        yes.wellFormed_chained, no.wellFormed_chained]

theorem Forms.wellFormed_chained {group : Group} :
    (forms : Forms group) → (forms.chained.WellFormed ↔ forms.WellFormed)
  | .nil => .rfl
  | .cons label form later => by
      simp [Forms.chained, Forms.WellFormed, form.wellFormed_chained, later.wellFormed_chained]
end

end MemberStubs.TypeGrammar
