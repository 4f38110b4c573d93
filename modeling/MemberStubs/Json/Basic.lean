namespace MemberStubs

/-! JSON documents as they are written. Numbers and strings keep their lexemes, so that a document
can be read before anyone asks whether an escape or a number in it means something; a string's
lexeme is the text between its quotes. Objects keep repeated keys and the order of all keys. -/

inductive Json where
  | null
  | bool (value : Bool)
  | number (lexeme : List Char)
  | string (lexeme : List Char)
  | array (items : List Json)
  | object (fields : List (List Char × Json))
  deriving Repr, Inhabited

namespace Json

/-! The height of a document is the number of arrays and objects around its innermost value. -/

mutual
def height : Json → Nat
  | .array items => heightOfItems items + 1
  | .object fields => heightOfFields fields + 1
  | _ => 0

def heightOfItems : List Json → Nat
  | [] => 0
  | item :: items => max item.height (heightOfItems items)

def heightOfFields : List (List Char × Json) → Nat
  | [] => 0
  | (_, value) :: fields => max value.height (heightOfFields fields)
end

example : height (.array [.null, .object [(['k'], .array [])]]) = 3 := rfl

end Json

end MemberStubs
