import MemberStubs.Proofs.TypeText.Names

namespace MemberStubs.TypeGrammar

/-! Types by the operators in them. A suffix binds tightest, then `keyof`, then `&`, then `|`; an
arrow and a condition bind weakest. -/

inductive Operator where
  | union
  | intersection
  deriving DecidableEq

def Operator.rank : Operator → Nat
  | .union => 1
  | .intersection => 2

inductive Token where
  | name (chars : List Char)
  | keyof
  | extends
  | arrow
  | operator (operator : Operator)
  | mark (c : Char)
  deriving DecidableEq

/-! ## Forms

A form is a type with all of its parentheses. Nothing in it says yet that its operators bind as they
are nested. -/

inductive Group where
  | arguments
  | parameters

inductive Label : Group → Type where
  | argument : Label .arguments
  | parameter (name : List Char) : Label .parameters

mutual
inductive Form where
  | name (chars : List Char)
  | generic (head : List Char) (arguments : Forms .arguments)
  | enclosed (inside : Form)
  | array (element : Form)
  | index (object key : Form)
  | keyof (operand : Form)
  | chain (operator : Operator) (left right : Form)
  | function (parameters : Forms .parameters) (result : Form)
  | conditional (checked bound yes no : Form)

inductive Forms : Group → Type where
  | nil : Forms group
  | cons (label : Label group) (form : Form) (later : Forms group) : Forms group
end

def Label.tokens : Label group → List Token
  | .argument => []
  | .parameter name => [.name name, .mark ':']

def Forms.isNil : Forms group → Bool
  | .nil => true
  | .cons .. => false

mutual
def Form.tokens : Form → List Token
  | .name chars => [.name chars]
  | .generic head arguments => .name head :: .mark '<' :: (arguments.tokens ++ [.mark '>'])
  | .enclosed inside => .mark '(' :: (inside.tokens ++ [.mark ')'])
  | .array element => element.tokens ++ [.mark '[', .mark ']']
  | .index object key => object.tokens ++ .mark '[' :: (key.tokens ++ [.mark ']'])
  | .keyof operand => .keyof :: operand.tokens
  | .chain operator left right => left.tokens ++ .operator operator :: right.tokens
  | .function parameters result =>
      .mark '(' :: (parameters.tokens ++ .mark ')' :: .arrow :: result.tokens)
  | .conditional checked bound yes no =>
      checked.tokens ++ .extends ::
        (bound.tokens ++ .mark '?' :: (yes.tokens ++ .mark ':' :: no.tokens))

def Forms.tokens : Forms group → List Token
  | .nil => []
  | .cons label form later =>
      label.tokens ++ (form.tokens ++ if later.isNil then [] else .mark ',' :: later.tokens)
end

/-! ## Ranks

The rank of a form tells how tight its outermost operator binds. Operands in parentheses have the
highest rank, as they have no operator outside. -/

def Form.rank : Form → Nat
  | .function .. => 0
  | .conditional .. => 0
  | .chain operator .. => operator.rank
  | .keyof .. => 3
  | _ => 4

mutual
/-- Every operand binds at least as tight as its operator. The operands of a chain may be chains of
the same operator, on either side. -/
def Form.WellFormed : Form → Prop
  | .name _ => True
  | .generic _ arguments => arguments.WellFormed
  | .enclosed inside => inside.WellFormed
  | .array element => element.WellFormed ∧ 4 ≤ element.rank
  | .index object key => object.WellFormed ∧ 4 ≤ object.rank ∧ key.WellFormed
  | .keyof operand => operand.WellFormed ∧ 3 ≤ operand.rank
  | .chain operator left right =>
      (left.WellFormed ∧ operator.rank ≤ left.rank) ∧ right.WellFormed ∧ operator.rank ≤ right.rank
  | .function parameters result => parameters.WellFormed ∧ result.WellFormed
  | .conditional checked bound yes no =>
      (checked.WellFormed ∧ 1 ≤ checked.rank) ∧ (bound.WellFormed ∧ 1 ≤ bound.rank) ∧
        yes.WellFormed ∧ no.WellFormed

def Forms.WellFormed : Forms group → Prop
  | .nil => True
  | .cons _ form later => form.WellFormed ∧ later.WellFormed
end

/-! ## What a form means

Parentheses only group, and how the links of a chain are grouped makes no difference. -/

/-- A chain that goes on, nested to the right. -/
def Form.join (operator : Operator) (first later : Form) : Form :=
  match first with
  | .chain other left right =>
      if other = operator then .chain operator left (right.join operator later)
      else .chain operator (.chain other left right) later
  | _ => .chain operator first later

mutual
def Form.plain : Form → Form
  | .name chars => .name chars
  | .generic head arguments => .generic head arguments.plain
  | .enclosed inside => inside.plain
  | .array element => .array element.plain
  | .index object key => .index object.plain key.plain
  | .keyof operand => .keyof operand.plain
  | .chain operator left right => left.plain.join operator right.plain
  | .function parameters result => .function parameters.plain result.plain
  | .conditional checked bound yes no => .conditional checked.plain bound.plain yes.plain no.plain

def Forms.plain : Forms group → Forms group
  | .nil => .nil
  | .cons label form later => .cons label form.plain later.plain
end

end MemberStubs.TypeGrammar
