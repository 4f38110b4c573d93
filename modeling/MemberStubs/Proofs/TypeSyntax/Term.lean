import MemberStubs.Proofs.TypeText.Names
import MemberStubs.TypeText.Quotes

namespace MemberStubs.TypeSyntax

/-! Types as trees, and how a tree is written. What is written is a list of parts, in which each
word keeps the role it has in the tree. -/

structure Name where
  chars : List Char
  isName : TypeText.IsName chars
  deriving DecidableEq

theorem Name.ext_chars {first second : Name} (same : first.chars = second.chars) :
    first = second := by
  cases first
  cases second
  cases same
  rfl

/-! ## String literals -/

inductive QuoteMark where
  | single
  | double
  deriving DecidableEq

def QuoteMark.char : QuoteMark → Char
  | .single => '\x27'
  | .double => '\"'

inductive QuotedChar (mark : QuoteMark) where
  | plain (c : Char) (isOther : c ≠ mark.char) (isPlain : c ≠ '\\')
  | escaped (c : Char)

def QuotedChar.chars : QuotedChar mark → List Char
  | .plain c _ _ => [c]
  | .escaped c => ['\\', c]

structure Literal where
  mark : QuoteMark
  content : List (QuotedChar mark)

def Literal.chars (literal : Literal) : List Char :=
  literal.mark.char :: (literal.content.flatMap QuotedChar.chars ++ [literal.mark.char])

/-! ## Trees

Types stand in groups: as the arguments of a generic type, the elements of a tuple, the types of
properties and of parameters. A slot is what goes with one type of a group. -/

inductive Group where
  | arguments
  | elements
  | properties
  | parameters
  deriving DecidableEq

inductive ElementForm where
  | plain
  | optional
  | spread
  deriving DecidableEq

inductive Separator where
  | semicolon
  | comma
  deriving DecidableEq

inductive ParameterForm where
  | plain
  | optional
  | rest
  deriving DecidableEq

inductive Slot : Group → Type where
  | argument : Slot .arguments
  | element (form : ElementForm) : Slot .elements
  | property (key : Name) (isReadonly isOptional : Bool) (separator : Separator) :
      Slot .properties
  | parameter (name : Name) (form : ParameterForm) : Slot .parameters

mutual
inductive TypeTerm where
  /-- A name alone or a qualified one, with no arguments unless it is generic. -/
  | reference (head : Name) (path : List Name) (arguments : Items .arguments)
  | literal (literal : Literal)
  | array (element : TypeTerm)
  | tuple (elements : Items .elements)
  | object (properties : Items .properties)
  | function (parameters : Items .parameters) (result : TypeTerm)
  | union (left right : TypeTerm)

inductive Items : Group → Type where
  | nil : Items group
  | cons (slot : Slot group) (type : TypeTerm) (later : Items group) : Items group
end

def TypeTerm.isFunction : TypeTerm → Bool
  | .function .. => true
  | _ => false

/-- A suffix would reach only a part of these. -/
def TypeTerm.isCompound : TypeTerm → Bool
  | .function .. => true
  | .union .. => true
  | _ => false

def Items.isNil : Items group → Bool
  | .nil => true
  | .cons .. => false

/-! ## References

A name that stands alone refers to a type. The head of a qualified name refers to a namespace, which
may share its name with a type. -/

mutual
def TypeTerm.instantiate (replace : Name → Name) : TypeTerm → TypeTerm
  | .reference head [] arguments => .reference (replace head) [] (arguments.instantiate replace)
  | .reference head (next :: path) arguments =>
      .reference head (next :: path) (arguments.instantiate replace)
  | .literal literal => .literal literal
  | .array element => .array (element.instantiate replace)
  | .tuple elements => .tuple (elements.instantiate replace)
  | .object properties => .object (properties.instantiate replace)
  | .function parameters result =>
      .function (parameters.instantiate replace) (result.instantiate replace)
  | .union left right => .union (left.instantiate replace) (right.instantiate replace)

def Items.instantiate (replace : Name → Name) : Items group → Items group
  | .nil => .nil
  | .cons slot type later => .cons slot (type.instantiate replace) (later.instantiate replace)
end

/-! ## Words

Behind the dots of a spread element or of a rest parameter the scan of a text sees what it sees
behind a dot that qualifies. So a role tells whether dots come before its word. -/

inductive Role where
  | reference (behindDots : Bool)
  | qualifier (behindDots : Bool)
  | member
  | key (isReadonly : Bool)
  | modifier
  | parameter (behindDots : Bool)
  deriving DecidableEq

namespace Role

/-- Whether a word refers to a type. -/
def isMeant : Role → Bool
  | reference _ => true
  | _ => false

/-- Whether the scan of a text takes a word for an occurrence of its name. -/
def isSeen : Role → Bool
  | reference behindDots => !behindDots
  | qualifier behindDots => !behindDots
  | member => false
  | key isReadonly => isReadonly
  | modifier => true
  | parameter behindDots => !behindDots

def isMisread (role : Role) : Bool :=
  role.isSeen != role.isMeant

end Role

inductive Part where
  | mark (c : Char)
  | quoted (literal : Literal)
  | word (role : Role) (name : Name)

def Part.chars : Part → List Char
  | .mark c => [c]
  | .quoted literal => literal.chars
  | .word _ name => name.chars

def written (parts : List Part) : List Char :=
  parts.flatMap Part.chars

def marks (chars : List Char) : List Part :=
  chars.map .mark

/-! ## Writing

The parts of a type depend on whether dots come before it, as this is what its first word may
need to tell. -/

/-- An operand in parentheses, if it needs them. -/
def operand (encloses : Bool) (inside : Bool → List Part) (behindDots : Bool) : List Part :=
  if encloses then .mark '(' :: (inside false ++ [.mark ')']) else inside behindDots

def readonlyName : Name :=
  ⟨"readonly".toList, by decide⟩

def memberParts (name : Name) : List Part :=
  [.mark '.', .word .member name]

def angled (isNil : Bool) (inside : List Part) : List Part :=
  if isNil then [] else .mark '<' :: (inside ++ [.mark '>'])

def ascription (isOptional : Bool) : List Part :=
  (if isOptional then [.mark '?'] else []) ++ marks [':', ' ']

namespace Slot

def parts (isCompound : Bool) (type : Bool → List Part) : Slot group → List Part
  | .argument => type false
  | .element .plain => type false
  | .element .optional => operand isCompound type false ++ [.mark '?']
  | .element .spread => marks ['.', '.', '.'] ++ type true
  | .property key false isOptional _ =>
      .mark ' ' :: .word (.key false) key :: (ascription isOptional ++ type false)
  | .property key true isOptional _ =>
      .mark ' ' :: .word .modifier readonlyName :: .mark ' ' ::
        .word (.key true) key :: (ascription isOptional ++ type false)
  | .parameter name .plain => .word (.parameter false) name :: (ascription false ++ type false)
  | .parameter name .optional => .word (.parameter false) name :: (ascription true ++ type false)
  | .parameter name .rest =>
      marks ['.', '.', '.'] ++ .word (.parameter true) name :: (ascription false ++ type false)

/-- What stands between a slot and the next one. -/
def separator : Slot group → List Char
  | .property _ _ _ .semicolon => [';']
  | .property _ _ _ .comma => [',']
  | _ => [',', ' ']

end Slot

mutual
def TypeTerm.parts : TypeTerm → Bool → List Part
  | .reference head path arguments, behindDots =>
      .word (if path.isEmpty then .reference behindDots else .qualifier behindDots) head ::
        (path.flatMap memberParts ++ angled arguments.isNil arguments.parts)
  | .literal literal, _ => [.quoted literal]
  | .array element, behindDots =>
      operand element.isCompound element.parts behindDots ++ marks ['[', ']']
  | .tuple elements, _ => .mark '[' :: (elements.parts ++ [.mark ']'])
  | .object properties, _ => .mark '\x7b' :: (properties.parts ++ marks [' ', '\x7d'])
  | .function parameters result, _ =>
      .mark '(' :: (parameters.parts ++ (marks [')', ' ', '=', '>', ' '] ++ result.parts false))
  | .union left right, behindDots =>
      operand left.isFunction left.parts behindDots ++
        (marks [' ', '|', ' '] ++ operand right.isCompound right.parts false)

def Items.parts : Items group → List Part
  | .nil => []
  | .cons slot type later =>
      slot.parts type.isCompound type.parts ++
        if later.isNil then [] else marks slot.separator ++ later.parts
end

def TypeTerm.text (type : TypeTerm) : String :=
  String.ofList (written (type.parts false))

end MemberStubs.TypeSyntax
