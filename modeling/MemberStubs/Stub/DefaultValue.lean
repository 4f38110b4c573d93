import MemberStubs.Text.Digits
import MemberStubs.TypeText.Operators

namespace MemberStubs

/-! Default values: an expression of a type that can be told from the text of the type alone. -/

namespace DefaultValue

def isQuotedBy (quote : Char) (type : List Char) : Bool :=
  type.length ≥ 2 && type.head? = some quote && type.getLast? = some quote

def isNumericLiteral (type : List Char) : Bool :=
  type.head?.any (fun c => c.isDigit || c = '-') && Text.isNumeral type

/-- A literal type is its own only value. -/
def isLiteral (type : List Char) : Bool :=
  isQuotedBy '\"' type || isQuotedBy '\x27' type || isNumericLiteral type

def isArray (type : List Char) : Bool :=
  "[]".toList.isSuffixOf type || "Array<".toList.isPrefixOf type ||
    "ReadonlyArray<".toList.isPrefixOf type

def ofKeyword? (type : List Char) : Option String :=
  match String.ofList type with
  | "number" => some "0"
  | "string" => some "\"\""
  | "boolean" => some "false"
  | "bigint" => some "0n"
  | "any" => some "undefined"
  | "undefined" => some "undefined"
  | "null" => some "null"
  | "true" => some "true"
  | "false" => some "false"
  | _ => none

/-- The default of a type that is no union, without blanks around it. -/
def ofOperand? (type : List Char) : Option String :=
  ofKeyword? type <|>
    if isArray type then some "[]"
    else if isLiteral type then some (String.ofList type)
    else none

end DefaultValue

/-- A function has no default. A union takes `undefined` or `null` if it may, and the default of its
first member otherwise. -/
def defaultValue? (type : String) : Option String :=
  if TypeText.isFunctionType type.toList then none
  else
    match TypeText.unionMembers type.toList with
    | first :: second :: others =>
        let isMember := fun name : String => (first :: second :: others).contains name.toList
        if isMember "undefined" || isMember "void" then some "undefined"
        else if isMember "null" then some "null"
        else if TypeText.isFunctionType first then none
        else DefaultValue.ofOperand? first
    | _ => DefaultValue.ofOperand? (Text.trim type.toList)

example : ["string | null", "'a' | 'b'", "() => number", "| number"].map defaultValue? =
    [some "null", some "'a'", none, none] := by
  decide +kernel

end MemberStubs
