import MemberStubs.Json.Basic

namespace MemberStubs.Json

/-! The written form of a document. Items and fields stand on lines of their own, two spaces deeper
than what holds them; an empty array or object is written without a break. -/

def lineBreak (level : Nat) : List Char :=
  '\n' :: List.replicate (2 * level) ' '

def quote (lexeme : List Char) : List Char :=
  '\"' :: lexeme ++ ['\"']

mutual
def pretty (level : Nat) : Json → List Char
  | .null => "null".toList
  | .bool true => "true".toList
  | .bool false => "false".toList
  | .number lexeme => lexeme
  | .string lexeme => quote lexeme
  | .array [] => ['[', ']']
  | .array (item :: items) =>
      '[' :: lineBreak (level + 1) ++ pretty (level + 1) item ++
        prettyItems (level + 1) items ++ lineBreak level ++ [']']
  | .object [] => ['\x7b', '\x7d']
  | .object ((key, value) :: fields) =>
      '\x7b' :: lineBreak (level + 1) ++ quote key ++ [':', ' '] ++ pretty (level + 1) value ++
        prettyFields (level + 1) fields ++ lineBreak level ++ ['\x7d']

def prettyItems (level : Nat) : List Json → List Char
  | [] => []
  | item :: items => ',' :: lineBreak level ++ pretty level item ++ prettyItems level items

def prettyFields (level : Nat) : List (List Char × Json) → List Char
  | [] => []
  | (key, value) :: fields =>
      ',' :: lineBreak level ++ quote key ++ [':', ' '] ++ pretty level value ++
        prettyFields level fields
end

def print (json : Json) : String :=
  String.ofList (json.pretty 0)

end MemberStubs.Json
