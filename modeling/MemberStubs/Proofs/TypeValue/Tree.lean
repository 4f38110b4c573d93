import MemberStubs.Proofs.TypeSyntax.Term
import MemberStubs.Proofs.TypeValue.Numeral

/-! Types as trees, and the values that are known to be of a type by its form. -/

namespace MemberStubs.TypeValue

open TypeSyntax (Literal Name Part QuoteMark angled marks written)

inductive Keyword where
  | any
  | unknown
  | never
  | number
  | string
  | boolean
  | bigint
  | symbol
  | object
  | void
  | undefined
  | null
  | literalTrue
  | literalFalse
  deriving DecidableEq

namespace Keyword

def all : List Keyword :=
  [any, unknown, never, number, string, boolean, bigint, symbol, object, void, undefined, null,
    literalTrue, literalFalse]

theorem mem_all (keyword : Keyword) : keyword ∈ all := by
  cases keyword <;> decide

def chars : Keyword → List Char
  | any => "any".toList
  | unknown => "unknown".toList
  | never => "never".toList
  | number => "number".toList
  | string => "string".toList
  | boolean => "boolean".toList
  | bigint => "bigint".toList
  | symbol => "symbol".toList
  | object => "object".toList
  | void => "void".toList
  | undefined => "undefined".toList
  | null => "null".toList
  | literalTrue => "true".toList
  | literalFalse => "false".toList

end Keyword

/-- A name that may be declared for a type or for a namespace. -/
structure TypeName where
  name : Name
  isFree : name.chars ∉ Keyword.all.map Keyword.chars

def TypeName.chars (name : TypeName) : List Char :=
  name.name.chars

def TypeName.isArray (name : TypeName) : Bool :=
  ["Array".toList, "ReadonlyArray".toList].contains name.chars

/-! ## Trees

The members of a union are operands, as a function type in a union stands in parentheses. -/

/-- The key of a property: a name, a literal, or a constant such as `Symbol.iterator` in brackets. -/
inductive Key where
  | plain (name : Name)
  | quoted (literal : Literal)
  | numeral (magnitude : Magnitude)
  | computed (head : TypeName) (path : List Name)

inductive ElementForm where
  | plain
  | optional
  | spread

inductive ParameterForm where
  | plain
  | optional
  | rest

inductive Group where
  | arguments
  | elements
  | members
  | typeParameters
  | clauses
  | parameters

/-- What goes with one type of a group. -/
inductive Slot : Group → Type where
  | argument : Slot .arguments
  | element (label : Option Name) (form : ElementForm) : Slot .elements
  | property (isReadonly : Bool) (key : Key) (isOptional : Bool) : Slot .members
  | index (isReadonly : Bool) (name : Name) (keyType : Keyword) : Slot .members
  | bound : Slot .clauses
  | fallback : Slot .clauses
  | parameter (name : Name) (form : ParameterForm) : Slot .parameters

inductive MethodHead where
  | named (key : Key) (isOptional : Bool)
  | call
  | construct

inductive FunctionForm where
  | call
  | construct
  | abstractConstruct

mutual
inductive Operand where
  | keyword (keyword : Keyword)
  | quoted (literal : Literal)
  | numeral (numeral : Numeral)
  | reference (head : TypeName) (path : List Name) (arguments : Items .arguments)
  | array (element : Operand)
  | tuple (elements : Items .elements)
  | object (members : Items .members)
  | enclosed (inside : TypeTree)

inductive TypeTree where
  | single (operand : Operand)
  | union (first second : Operand) (others : Operands)
  | function (form : FunctionForm) (signature : Signature)

inductive Operands where
  | nil
  | cons (operand : Operand) (later : Operands)

inductive Signature where
  | signature (typeParameters : Items .typeParameters) (parameters : Items .parameters)
      (result : TypeTree)

inductive Items : Group → Type where
  | nil : Items group
  | cons (slot : Slot group) (type : TypeTree) (later : Items group) : Items group
  | method (head : MethodHead) (signature : Signature) (later : Items .members) : Items .members
  | typeParameter (name : Name) (clauses : Items .clauses) (later : Items .typeParameters) :
      Items .typeParameters
end

def Items.isNil : Items group → Bool
  | .nil => true
  | _ => false

/-! ## Writing -/

def qualified (head : TypeName) (path : List Name) : List Char :=
  head.chars ++ path.flatMap fun name => '.' :: name.chars

def Key.parts : Key → List Part
  | .plain name => marks name.chars
  | .quoted literal => [.quoted literal]
  | .numeral magnitude => marks magnitude.chars
  | .computed head path => marks ('[' :: (qualified head path ++ [']']))

/-- A colon, behind a question mark if something is optional. -/
def colon (isOptional : Bool) : List Part :=
  marks ((if isOptional then ['?'] else []) ++ [':', ' '])

def readonlyMark (isReadonly : Bool) : List Part :=
  marks (if isReadonly then "readonly ".toList else [])

namespace Slot

/-- What stands in front of the type. -/
def front : Slot group → List Part
  | .argument => []
  | .element label form =>
      let dots := match form with
        | .spread => marks "...".toList
        | _ => []
      dots ++ label.elim [] fun name =>
        marks name.chars ++ colon (match form with | .optional => true | _ => false)
  | .property isReadonly key isOptional => readonlyMark isReadonly ++ key.parts ++ colon isOptional
  | .index isReadonly name keyType =>
      readonlyMark isReadonly ++
        .mark '[' :: (marks name.chars ++ colon false ++ marks keyType.chars ++ [.mark ']']) ++
          colon false
  | .bound => marks " extends ".toList
  | .fallback => marks " = ".toList
  | .parameter name .plain => marks name.chars ++ colon false
  | .parameter name .optional => marks name.chars ++ colon true
  | .parameter name .rest => marks "...".toList ++ marks name.chars ++ colon false

/-- What stands behind the type. -/
def behind : Slot group → List Part
  | .element none .optional => [.mark '?']
  | _ => []

end Slot

def MethodHead.parts : MethodHead → List Part
  | .named key isOptional => key.parts ++ marks (if isOptional then ['?'] else [])
  | .call => []
  | .construct => marks "new ".toList

def FunctionForm.word : FunctionForm → List Char
  | .call => []
  | .construct => "new ".toList
  | .abstractConstruct => "abstract new ".toList

def Group.separator : Group → List Char
  | .members => "; ".toList
  | .clauses => []
  | _ => ", ".toList

def separated (group : Group) (isLast : Bool) (later : List Part) : List Part :=
  if isLast then [] else marks group.separator ++ later

def padded (isNil : Bool) (inside : List Part) : List Part :=
  if isNil then [] else .mark ' ' :: (inside ++ [.mark ' '])

mutual
def Operand.parts : Operand → List Part
  | .keyword keyword => marks keyword.chars
  | .quoted literal => [.quoted literal]
  | .numeral numeral => marks numeral.chars
  | .reference head path arguments =>
      marks (qualified head path) ++ angled arguments.isNil arguments.parts
  | .array element => element.parts ++ marks ['[', ']']
  | .tuple elements => .mark '[' :: (elements.parts ++ [.mark ']'])
  | .object members => .mark '\x7b' :: (padded members.isNil members.parts ++ [.mark '\x7d'])
  | .enclosed inside => .mark '(' :: (inside.parts ++ [.mark ')'])

def TypeTree.parts : TypeTree → List Part
  | .single operand => operand.parts
  | .union first second others =>
      first.parts ++ (marks " | ".toList ++ (second.parts ++ others.parts))
  | .function form signature => marks form.word ++ signature.parts " => ".toList

def Operands.parts : Operands → List Part
  | .nil => []
  | .cons operand later => marks " | ".toList ++ (operand.parts ++ later.parts)

def Signature.parts (arrow : List Char) : Signature → List Part
  | .signature typeParameters parameters result =>
      angled typeParameters.isNil typeParameters.parts ++
        (.mark '(' :: (parameters.parts ++ [.mark ')']) ++ (marks arrow ++ result.parts))

def Items.parts : Items group → List Part
  | .nil => []
  | .cons slot type later =>
      slot.front ++ type.parts ++ slot.behind ++ separated group later.isNil later.parts
  | .method head signature later =>
      head.parts ++ signature.parts ": ".toList ++ separated .members later.isNil later.parts
  | .typeParameter name clauses later =>
      marks name.chars ++ clauses.parts ++ separated .typeParameters later.isNil later.parts
end

def Operands.toList : Operands → List Operand
  | .nil => []
  | .cons operand later => operand :: later.toList

/-- The operands at the top level. A function type has none. -/
def TypeTree.operands : TypeTree → List Operand
  | .single operand => [operand]
  | .union first second others => first :: second :: others.toList
  | .function .. => []

def TypeTree.isFunction : TypeTree → Bool
  | .function .. => true
  | _ => false

def TypeTree.text (type : TypeTree) : String :=
  String.ofList (written type.parts)

/-! ## Values -/

inductive Value where
  | numeral (numeral : Numeral)
  | quoted (literal : Literal)
  | boolean (holds : Bool)
  | emptyArray
  | undefined
  | null

namespace Value

def chars : Value → List Char
  | numeral literal => literal.chars
  | quoted literal => literal.chars
  | boolean true => "true".toList
  | boolean false => "false".toList
  | emptyArray => "[]".toList
  | undefined => "undefined".toList
  | null => "null".toList

def text (value : Value) : String :=
  String.ofList value.chars

def isNullish : Value → Bool
  | undefined => true
  | null => true
  | _ => false

end Value

def Keyword.has : Keyword → Value → Bool
  | .any, _ => true
  | .unknown, _ => true
  | .number, .numeral numeral => !numeral.isBig
  | .bigint, .numeral numeral => numeral.isBig
  | .string, .quoted _ => true
  | .boolean, .boolean _ => true
  | .literalTrue, .boolean holds => holds
  | .literalFalse, .boolean holds => !holds
  | .object, .emptyArray => true
  | .void, .undefined => true
  | .undefined, .undefined => true
  | .null, .null => true
  | _, _ => false

/-- Whether a tuple may be without elements. -/
def Items.mayBeEmpty : Items .elements → Bool
  | .nil => true
  | .cons (.element _ .optional) _ later => later.mayBeEmpty
  | .cons .. => false

mutual
def Operand.Has (value : Value) : Operand → Prop
  | .keyword keyword => keyword.has value = true
  | .quoted literal => value = .quoted literal
  | .numeral numeral => value = .numeral numeral
  | .reference head path arguments =>
      head.isArray = true ∧ path = [] ∧ arguments.isNil = false ∧ value = .emptyArray
  | .array _ => value = .emptyArray
  | .tuple elements => elements.mayBeEmpty = true ∧ value = .emptyArray
  | .object members => members.isNil = true ∧ value.isNullish = false
  | .enclosed inside => inside.Has value

/-- Whether a value is known to be of a type. No value is known for a function type. -/
def TypeTree.Has (value : Value) : TypeTree → Prop
  | .single operand => operand.Has value
  | .union first second others => first.Has value ∨ second.Has value ∨ others.Has value
  | .function .. => False

def Operands.Has (value : Value) : Operands → Prop
  | .nil => False
  | .cons operand later => operand.Has value ∨ later.Has value
end

theorem Operands.has_iff {value : Value} {operands : Operands} :
    operands.Has value ↔ ∃ operand ∈ operands.toList, operand.Has value := by
  cases operands with
  | nil => simp [Has, toList]
  | cons operand later => simp [Has, toList, @has_iff value later]

theorem TypeTree.has_of_mem {value : Value} {type : TypeTree} {operand : Operand}
    (member : operand ∈ type.operands) (has : operand.Has value) : type.Has value := by
  cases type with
  | single other =>
      rw [operands, List.mem_singleton] at member
      rwa [← member]
  | union first second others =>
      rw [operands, List.mem_cons, List.mem_cons] at member
      rcases member with rfl | rfl | later
      · exact .inl has
      · exact .inr (.inl has)
      · exact .inr (.inr (Operands.has_iff.mpr ⟨operand, later, has⟩))
  | function form signature => cases member

end MemberStubs.TypeValue
