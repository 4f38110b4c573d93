import MemberStubs.Proofs.TypeGrammar.Chain

/-! Two forms with the same tokens that mean the same have their parentheses in the same places. -/

namespace MemberStubs.TypeGrammar

/-! ## Matching parentheses -/

/-- The tokens up to the parenthesis that closes what is open before them. -/
def upToClose (depth : Nat) : List Token → List Token
  | [] => []
  | .mark '(' :: rest => .mark '(' :: upToClose (depth + 1) rest
  | .mark ')' :: rest =>
      match depth with
      | 0 => []
      | depth + 1 => .mark ')' :: upToClose depth rest
  | token :: rest => token :: upToClose depth rest

theorem upToClose_label {group : Group} (label : Label group) (depth : Nat) (rest : List Token) :
    upToClose depth (label.tokens ++ rest) = label.tokens ++ upToClose depth rest := by
  cases label <;> rfl

mutual
theorem Form.upToClose_tokens : (form : Form) → (depth : Nat) → (rest : List Token) →
    upToClose depth (form.tokens ++ rest) = form.tokens ++ upToClose depth rest
  | .name _, _, _ => rfl
  | .generic _ arguments, depth, rest => by
      simp [Form.tokens, upToClose, arguments.upToClose_tokens]
  | .enclosed inside, depth, rest => by
      simp [Form.tokens, upToClose, inside.upToClose_tokens]
  | .array element, depth, rest => by
      simp [Form.tokens, upToClose, element.upToClose_tokens]
  | .index object key, depth, rest => by
      simp [Form.tokens, upToClose, object.upToClose_tokens, key.upToClose_tokens]
  | .keyof operand, depth, rest => by
      simp [Form.tokens, upToClose, operand.upToClose_tokens]
  | .chain operator left right, depth, rest => by
      simp [Form.tokens, upToClose, left.upToClose_tokens, right.upToClose_tokens]
  | .function parameters result, depth, rest => by
      simp [Form.tokens, upToClose, parameters.upToClose_tokens, result.upToClose_tokens]
  | .conditional checked bound yes no, depth, rest => by
      simp [Form.tokens, upToClose, checked.upToClose_tokens, bound.upToClose_tokens,
        yes.upToClose_tokens, no.upToClose_tokens]

theorem Forms.upToClose_tokens {group : Group} : (forms : Forms group) → (depth : Nat) →
    (rest : List Token) →
    upToClose depth (forms.tokens ++ rest) = forms.tokens ++ upToClose depth rest
  | .nil, _, _ => rfl
  | .cons label form later, depth, rest => by
      have behind : upToClose depth
          ((if later.isNil then [] else .mark ',' :: later.tokens) ++ rest) =
            (if later.isNil then [] else .mark ',' :: later.tokens) ++ upToClose depth rest := by
        split
        · rfl
        · simp [upToClose, later.upToClose_tokens]
      simp [Forms.tokens, upToClose_label, form.upToClose_tokens, behind]
end

theorem tokens_eq_of_closed {first second : List Token} {rest other : List Token}
    (firstCloses : ∀ rest, upToClose 0 (first ++ rest) = first ++ upToClose 0 rest)
    (secondCloses : ∀ rest, upToClose 0 (second ++ rest) = second ++ upToClose 0 rest)
    (same : first ++ .mark ')' :: rest = second ++ .mark ')' :: other) :
    first = second ∧ rest = other := by
  have inside := congrArg (upToClose 0) same
  simp only [firstCloses, secondCloses, upToClose, List.append_nil] at inside
  subst inside
  simpa using same

/-! ## Volume -/

/-- How many tokens are no parentheses. -/
def volume (tokens : List Token) : Nat :=
  tokens.countP fun token => token ≠ .mark '(' ∧ token ≠ .mark ')'

@[simp] theorem volume_nil : volume [] = 0 :=
  rfl

@[simp] theorem volume_append (first second : List Token) :
    volume (first ++ second) = volume first + volume second := by
  simp [volume]

theorem volume_cons (token : Token) (rest : List Token) :
    volume (token :: rest) =
      volume rest + if token ≠ .mark '(' ∧ token ≠ .mark ')' then 1 else 0 := by
  simp [volume, List.countP_cons]

@[simp] theorem Form.volume_enclosed (inside : Form) :
    volume (Form.enclosed inside).tokens = volume inside.tokens := by
  simp [Form.tokens, volume_cons]

@[simp] theorem Form.volume_chain (operator : Operator) (left right : Form) :
    volume (Form.chain operator left right).tokens =
      volume left.tokens + (volume right.tokens + 1) := by
  simp [Form.tokens, volume_cons]

theorem Forms.eq_nil_of_isNil {group : Group} {forms : Forms group} (isNil : forms.isNil = true) :
    forms = .nil := by
  cases forms with
  | nil => rfl
  | cons label form later => cases isNil

@[simp] theorem Forms.isNil_plain {group : Group} (forms : Forms group) :
    forms.plain.isNil = forms.isNil := by
  cases forms <;> rfl

mutual
theorem Form.volume_plain : (form : Form) → volume form.plain.tokens = volume form.tokens
  | .name _ => rfl
  | .generic _ arguments => by
      simp [Form.plain, Form.tokens, volume_cons, arguments.volume_plain]
  | .enclosed inside => by
      simp [Form.plain, Form.tokens, volume_cons, inside.volume_plain]
  | .array element => by
      simp [Form.plain, Form.tokens, element.volume_plain]
  | .index object key => by
      simp [Form.plain, Form.tokens, volume_cons, object.volume_plain, key.volume_plain]
  | .keyof operand => by
      simp [Form.plain, Form.tokens, volume_cons, operand.volume_plain]
  | .chain operator left right => by
      simp [Form.plain, Form.tokens, Form.tokens_join, volume_cons, left.volume_plain,
        right.volume_plain]
  | .function parameters result => by
      simp [Form.plain, Form.tokens, volume_cons, parameters.volume_plain, result.volume_plain]
  | .conditional checked bound yes no => by
      simp [Form.plain, Form.tokens, volume_cons, checked.volume_plain, bound.volume_plain,
        yes.volume_plain, no.volume_plain]

theorem Forms.volume_plain {group : Group} :
    (forms : Forms group) → volume forms.plain.tokens = volume forms.tokens
  | .nil => rfl
  | .cons label form later => by
      cases last : later.isNil <;>
        simp [Forms.plain, Forms.tokens, last, volume_cons, form.volume_plain,
          later.volume_plain]
end

/-! ## Where parentheses open -/

namespace Form

def isEnclosed : Form → Bool
  | .enclosed _ => true
  | _ => false

theorem volume_le_of_leading {inside leading : Form}
    (here : volume inside.tokens + (if leading.isEnclosed then 0 else 1) ≤ volume leading.tokens)
    {behind : List Token} (more : 0 < volume behind) :
    volume inside.tokens + 1 ≤ volume (leading.tokens ++ behind) := by
  rw [volume_append]
  exact Nat.add_le_add (Nat.le_of_add_right_le here) more

/-- What stands in the parentheses that a form begins with is a part of the form, unless these
parentheses are all of it. -/
theorem volume_le_of_opening {inside : Form} {behind : List Token} :
    (form : Form) → {rest : List Token} →
    form.tokens ++ rest = .mark '(' :: (inside.tokens ++ .mark ')' :: behind) →
    volume inside.tokens + (if form.isEnclosed then 0 else 1) ≤ volume form.tokens
  | .name _, _, same => by simp [tokens] at same
  | .generic _ _, _, same => by simp [tokens] at same
  | .keyof _, _, same => by simp [tokens] at same
  | .enclosed other, rest, same => by
      simp only [tokens, List.cons_append, List.append_assoc, List.cons.injEq, true_and,
        List.nil_append] at same
      have inner := (tokens_eq_of_closed (other.upToClose_tokens 0) (inside.upToClose_tokens 0)
        same).1
      simp [isEnclosed, tokens, volume_cons, inner]
  | .function parameters result, rest, same => by
      simp only [tokens, List.cons_append, List.append_assoc, List.cons.injEq, true_and] at same
      have inner := (tokens_eq_of_closed (parameters.upToClose_tokens 0)
        (inside.upToClose_tokens 0) same).1
      simp [isEnclosed, tokens, volume_cons, inner]
  | .array element, rest, same => by
      rw [tokens, List.append_assoc] at same
      exact volume_le_of_leading (volume_le_of_opening element same) (by simp [volume_cons])
  | .index object key, rest, same => by
      rw [tokens, List.append_assoc] at same
      exact volume_le_of_leading (volume_le_of_opening object same) (by simp [volume_cons])
  | .chain operator left right, rest, same => by
      rw [tokens, List.append_assoc] at same
      exact volume_le_of_leading (volume_le_of_opening left same) (by simp [volume_cons])
  | .conditional checked bound yes no, rest, same => by
      rw [tokens, List.append_assoc] at same
      exact volume_le_of_leading (volume_le_of_opening checked same) (by simp [volume_cons])

section

variable {first second : Form} {rest other : List Token}

theorem isEnclosed_of_tokens (enclosed : first.isEnclosed = true)
    (means : volume first.tokens = volume second.tokens)
    (same : first.tokens ++ rest = second.tokens ++ other) : second.isEnclosed = true := by
  cases first with
  | enclosed inside =>
      cases isEnclosed : second.isEnclosed with
      | true => rfl
      | false =>
          simp only [tokens, List.cons_append, List.append_assoc] at same
          have inner := volume_le_of_opening second same.symm
          rw [isEnclosed, ← means, volume_enclosed] at inner
          exact absurd inner (Nat.not_succ_le_self _)
  | _ => cases enclosed

theorem isEnclosed_eq (means : volume first.tokens = volume second.tokens)
    (same : first.tokens ++ rest = second.tokens ++ other) :
    first.isEnclosed = second.isEnclosed := by
  rw [Bool.eq_iff_iff]
  exact ⟨fun enclosed => isEnclosed_of_tokens enclosed means same,
    fun enclosed => isEnclosed_of_tokens enclosed means.symm same.symm⟩

end

end Form

/-! ## The first link of a chain -/

namespace Form

theorem exists_of_isChain {operator : Operator} {form : Form}
    (isChain : form.isChain operator = true) : ∃ left right, form = .chain operator left right := by
  cases form with
  | chain other left right =>
      simp only [Form.isChain, decide_eq_true_eq] at isChain
      exact ⟨left, right, by rw [isChain]⟩
  | _ => cases isChain

section

variable {operator : Operator} {first later second last : Form}

/-- Of two equal chains, a first link that is not bigger ends where the other one does. -/
theorem isChain_eq_false_of_join_eq (single : second.isChain operator = false)
    (same : first.join operator later = second.join operator last)
    (bound : volume first.tokens ≤ volume second.tokens) : first.isChain operator = false := by
  rw [Bool.eq_false_iff]
  intro isChain
  rcases exists_of_isChain isChain with ⟨left, right, rfl⟩
  rw [join_of_isChain_eq_false single, join, if_pos rfl] at same
  injection same with _ equal
  rw [volume_chain, equal] at bound
  omega

/-- Of two equal chains, a first link that is smaller goes on in the other one. -/
theorem isChain_of_join_eq (same : first.join operator later = second.join operator last)
    (less : volume first.tokens < volume second.tokens) : second.isChain operator = true := by
  rw [← Bool.not_eq_false]
  intro single
  have firstSingle := isChain_eq_false_of_join_eq single same (Nat.le_of_lt less)
  rw [join_of_isChain_eq_false single, join_of_isChain_eq_false firstSingle] at same
  cases same
  exact Nat.lt_irrefl _ less

theorem join_inj (same : first.join operator later = second.join operator last)
    (equal : volume first.tokens = volume second.tokens) : first = second ∧ later = last := by
  induction size : volume first.tokens using Nat.strongRecOn generalizing first second with
  | ind size induction =>
      cases single : second.isChain operator with
      | false =>
          have firstSingle := isChain_eq_false_of_join_eq single same (Nat.le_of_eq equal)
          rw [join_of_isChain_eq_false single, join_of_isChain_eq_false firstSingle] at same
          injection same with _ firsts laters
          exact ⟨firsts, laters⟩
      | true =>
          rcases exists_of_isChain single with ⟨secondLeft, secondRight, rfl⟩
          have isChain : first.isChain operator = true := by
            rw [← Bool.not_eq_false]
            intro firstSingle
            have apart := isChain_eq_false_of_join_eq firstSingle same.symm
              (Nat.le_of_eq equal.symm)
            rw [single] at apart
            cases apart
          rcases exists_of_isChain isChain with ⟨left, right, rfl⟩
          rw [join, join, if_pos rfl, if_pos rfl] at same
          injection same with _ lefts rights
          subst lefts
          rw [volume_chain] at equal size
          rw [volume_chain, Nat.add_left_cancel_iff, Nat.add_right_cancel_iff] at equal
          rcases induction (volume right.tokens) (by omega) rights equal rfl with ⟨rfl, rfl⟩
          exact ⟨rfl, rfl⟩

end

theorem isChain_plain {operator : Operator} {form : Form} (single : form.isChain operator = false)
    (isChain : form.plain.isChain operator = true) : form.isEnclosed = true := by
  cases form with
  | enclosed inside => rfl
  | chain other left right =>
      have joined := isChain_join other left.plain right.plain
      rcases exists_of_isChain joined with ⟨first, later, same⟩
      simp only [plain, same, Form.isChain] at isChain single
      rw [isChain] at single
      cases single
  | _ => cases isChain

section

variable {operator : Operator} {first second : Form} {rest other : List Token}

/-- The first link of a chain is not bigger than that of another one with the same tokens and the
same meaning: a link that went on in parentheses would have the whole other link in them. -/
theorem volume_le_of_links {later last : Form} (single : second.isChain operator = false)
    (same : first.tokens ++ rest = second.tokens ++ other)
    (means : first.plain.join operator later = second.plain.join operator last) :
    volume second.tokens ≤ volume first.tokens := by
  refine Nat.le_of_not_lt fun less => ?_
  have smaller : volume first.plain.tokens < volume second.plain.tokens := by
    rwa [first.volume_plain, second.volume_plain]
  have enclosed := isChain_plain single (isChain_of_join_eq means smaller)
  cases second with
  | enclosed inside =>
      simp only [tokens, List.cons_append, List.append_assoc] at same
      have inner := volume_le_of_opening first same
      rw [volume_enclosed] at less
      omega
  | _ => cases enclosed

theorem plain_eq_of_links {later last : Form} (firstSingle : first.isChain operator = false)
    (secondSingle : second.isChain operator = false)
    (same : first.tokens ++ rest = second.tokens ++ other)
    (means : first.plain.join operator later = second.plain.join operator last) :
    first.plain = second.plain ∧ later = last := by
  refine join_inj means ?_
  rw [first.volume_plain, second.volume_plain]
  exact Nat.le_antisymm (volume_le_of_links firstSingle same.symm means.symm)
    (volume_le_of_links secondSingle same means)

end

end Form

/-! ## The same places -/

theorem Label.eq_of_tokens {group : Group} {first second : Label group} {rest other : List Token}
    (same : first.tokens ++ rest = second.tokens ++ other) : first = second ∧ rest = other := by
  cases first <;> cases second <;> simp_all [Label.tokens]

/-- What a form is outside. -/
inductive Shape where
  | name
  | generic
  | enclosed
  | array
  | index
  | keyof
  | chain (operator : Operator)
  | function
  | conditional

def Form.shape : Form → Shape
  | .name .. => .name
  | .generic .. => .generic
  | .enclosed .. => .enclosed
  | .array .. => .array
  | .index .. => .index
  | .keyof .. => .keyof
  | .chain operator .. => .chain operator
  | .function .. => .function
  | .conditional .. => .conditional

theorem Form.shape_of_isEnclosed {form : Form} (enclosed : form.isEnclosed = true) :
    form.shape = .enclosed := by
  cases form with
  | enclosed inside => rfl
  | _ => cases enclosed

theorem Form.shape_plain {form : Form} (bare : form.isEnclosed = false) :
    form.plain.shape = form.shape := by
  cases form with
  | enclosed inside => cases bare
  | chain operator left right =>
      rcases Form.exists_of_isChain (Form.isChain_join operator left.plain right.plain) with
        ⟨first, later, same⟩
      rw [Form.plain, same]
      rfl
  | _ => rfl

theorem Form.shape_eq {first second : Form} {rest other : List Token}
    (means : first.plain = second.plain)
    (same : first.tokens ++ rest = second.tokens ++ other) : first.shape = second.shape := by
  have volumes : volume first.tokens = volume second.tokens := by
    rw [← first.volume_plain, ← second.volume_plain, means]
  have enclosed := Form.isEnclosed_eq volumes same
  cases bare : second.isEnclosed with
  | false => rw [← shape_plain bare, ← means, shape_plain (enclosed.trans bare)]
  | true => rw [shape_of_isEnclosed bare, shape_of_isEnclosed (enclosed.trans bare)]

mutual
theorem Form.eq_of_plain : (first second : Form) → {rest other : List Token} →
    first.IsChained → second.IsChained → first.plain = second.plain →
    first.tokens ++ rest = second.tokens ++ other → first = second ∧ rest = other
  | .name chars, second, rest, other, firstChained, secondChained, means, same => by
      have shape := Form.shape_eq means same
      cases second with
      | name chars =>
          simp only [Form.tokens, List.singleton_append, List.cons.injEq, Token.name.injEq] at same
          rcases same with ⟨rfl, equal⟩
          exact ⟨rfl, equal⟩
      | _ => cases shape
  | .generic head arguments, second, rest, other, firstChained, secondChained, means, same => by
      have shape := Form.shape_eq means same
      cases second with
      | generic second others =>
          simp only [Form.plain, Form.tokens, Form.generic.injEq, List.cons_append,
            List.append_assoc, List.cons.injEq, true_and, Token.name.injEq] at means same
          rcases arguments.eq_of_plain others firstChained secondChained means.2 same.2 with
            ⟨rfl, equal⟩
          exact ⟨by rw [means.1], (List.cons.inj equal).2⟩
      | _ => cases shape
  | .enclosed inside, second, rest, other, firstChained, secondChained, means, same => by
      have shape := Form.shape_eq means same
      cases second with
      | enclosed second =>
          simp only [Form.plain, Form.tokens, List.cons_append, List.append_assoc,
            List.cons.injEq, true_and] at means same
          rcases inside.eq_of_plain second firstChained secondChained means same with ⟨rfl, equal⟩
          exact ⟨rfl, (List.cons.inj equal).2⟩
      | _ => cases shape
  | .array element, second, rest, other, firstChained, secondChained, means, same => by
      have shape := Form.shape_eq means same
      cases second with
      | array second =>
          simp only [Form.plain, Form.tokens, Form.array.injEq, List.append_assoc] at means same
          rcases element.eq_of_plain second firstChained secondChained means same with ⟨rfl, equal⟩
          exact ⟨rfl, List.append_cancel_left equal⟩
      | _ => cases shape
  | .index object key, second, rest, other, firstChained, secondChained, means, same => by
      have shape := Form.shape_eq means same
      cases second with
      | index second secondKey =>
          simp only [Form.plain, Form.tokens, Form.index.injEq, List.append_assoc,
            List.cons_append] at means same
          rcases object.eq_of_plain second firstChained.1 secondChained.1 means.1 same with
            ⟨rfl, equal⟩
          simp only [List.cons.injEq, true_and] at equal
          rcases key.eq_of_plain secondKey firstChained.2 secondChained.2 means.2 equal with
            ⟨rfl, behind⟩
          exact ⟨rfl, (List.cons.inj behind).2⟩
      | _ => cases shape
  | .keyof operand, second, rest, other, firstChained, secondChained, means, same => by
      have shape := Form.shape_eq means same
      cases second with
      | keyof second =>
          simp only [Form.plain, Form.tokens, Form.keyof.injEq, List.cons_append,
            List.cons.injEq, true_and] at means same
          rcases operand.eq_of_plain second firstChained secondChained means same with ⟨rfl, equal⟩
          exact ⟨rfl, equal⟩
      | _ => cases shape
  | .chain operator left right, second, rest, other, firstChained, secondChained, means, same => by
      have shape := Form.shape_eq means same
      cases second with
      | chain secondOperator second secondRight =>
          cases shape
          simp only [Form.plain, Form.tokens, List.append_assoc] at means same
          -- The chains mean the same as wholes; their tokens tell that their links do.
          rcases Form.plain_eq_of_links firstChained.1 secondChained.1 same means with
            ⟨leftMeans, rightMeans⟩
          rcases left.eq_of_plain second firstChained.2.1 secondChained.2.1 leftMeans same with
            ⟨rfl, equal⟩
          simp only [List.cons_append, List.cons.injEq, true_and] at equal
          rcases right.eq_of_plain secondRight firstChained.2.2 secondChained.2.2 rightMeans equal
            with ⟨rfl, behind⟩
          exact ⟨rfl, behind⟩
      | _ => cases shape
  | .function parameters result, second, rest, other, firstChained, secondChained, means, same => by
      have shape := Form.shape_eq means same
      cases second with
      | function second secondResult =>
          simp only [Form.plain, Form.tokens, Form.function.injEq, List.append_assoc,
            List.cons_append, List.cons.injEq, true_and] at means same
          rcases parameters.eq_of_plain second firstChained.1 secondChained.1 means.1 same with
            ⟨rfl, equal⟩
          simp only [List.cons.injEq, true_and] at equal
          rcases result.eq_of_plain secondResult firstChained.2 secondChained.2 means.2 equal with
            ⟨rfl, behind⟩
          exact ⟨rfl, behind⟩
      | _ => cases shape
  | .conditional checked bound yes no, second, rest, other, firstChained, secondChained, means,
      same => by
      have shape := Form.shape_eq means same
      cases second with
      | conditional second secondBound secondYes secondNo =>
          simp only [Form.plain, Form.tokens, Form.conditional.injEq, List.append_assoc,
            List.cons_append] at means same
          rcases checked.eq_of_plain second firstChained.1 secondChained.1 means.1 same with
            ⟨rfl, behindChecked⟩
          rcases bound.eq_of_plain secondBound firstChained.2.1 secondChained.2.1 means.2.1
            (List.cons.inj behindChecked).2 with ⟨rfl, behindBound⟩
          rcases yes.eq_of_plain secondYes firstChained.2.2.1 secondChained.2.2.1 means.2.2.1
            (List.cons.inj behindBound).2 with ⟨rfl, behindYes⟩
          rcases no.eq_of_plain secondNo firstChained.2.2.2 secondChained.2.2.2 means.2.2.2
            (List.cons.inj behindYes).2 with ⟨rfl, behind⟩
          exact ⟨rfl, behind⟩
      | _ => cases shape

theorem Forms.eq_of_plain {group : Group} : (first second : Forms group) →
    {rest other : List Token} → first.IsChained → second.IsChained → first.plain = second.plain →
    first.tokens ++ rest = second.tokens ++ other → first = second ∧ rest = other
  | .nil, second, rest, other, firstChained, secondChained, means, same => by
      cases second with
      | nil => exact ⟨rfl, same⟩
      | cons label form later => cases means
  | .cons label form later, second, rest, other, firstChained, secondChained, means, same => by
      cases second with
      | nil => cases means
      | cons secondLabel second secondLater =>
          simp only [Forms.plain, Forms.tokens, Forms.cons.injEq, List.append_assoc] at means same
          rcases Label.eq_of_tokens same with ⟨rfl, equal⟩
          rcases form.eq_of_plain second firstChained.1 secondChained.1 means.2.1 equal with
            ⟨rfl, behindForm⟩
          have isNil : later.isNil = secondLater.isNil := by
            rw [← later.isNil_plain, ← secondLater.isNil_plain, means.2.2]
          rw [isNil] at behindForm
          cases last : secondLater.isNil with
          | true =>
              rw [last] at behindForm isNil
              rw [Forms.eq_nil_of_isNil isNil, Forms.eq_nil_of_isNil last]
              exact ⟨rfl, behindForm⟩
          | false =>
              simp only [last, Bool.false_eq_true, if_false, List.cons_append, List.cons.injEq,
                true_and] at behindForm
              rcases later.eq_of_plain secondLater firstChained.2 secondChained.2 means.2.2
                behindForm with ⟨rfl, behind⟩
              exact ⟨rfl, behind⟩
end

/-- What binds as it is nested in one form does so in every form with these tokens and this
meaning. -/
theorem Form.wellFormed_of_plain {first second : Form} (wellFormed : second.WellFormed)
    (means : first.plain = second.plain) (same : first.tokens = second.tokens) :
    first.WellFormed := by
  have chains : first.chained.tokens ++ [] = second.chained.tokens ++ [] := by simp [same]
  have equal := (Form.eq_of_plain first.chained second.chained first.isChained_chained
    second.isChained_chained (by simp [means]) chains).1
  rwa [← first.wellFormed_chained, equal, second.wellFormed_chained]

end MemberStubs.TypeGrammar
