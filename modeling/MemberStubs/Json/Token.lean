import MemberStubs.Json.Lexeme
import MemberStubs.Json.Number

namespace MemberStubs.Json

/-! Tokens. Between them stand only spaces, tabs, line feeds and carriage returns. -/

inductive Token where
  | openObject
  | closeObject
  | openArray
  | closeArray
  | comma
  | colon
  | null
  | bool (value : Bool)
  | number (lexeme : List Char)
  | string (lexeme : List Char)
  deriving DecidableEq, Repr

def isSpace (c : Char) : Bool :=
  c = ' ' || c = '\n' || c = '\r' || c = '\t'

def punctuation? : Char → Option Token
  | '\x7b' => some .openObject
  | '\x7d' => some .closeObject
  | '[' => some .openArray
  | ']' => some .closeArray
  | ',' => some .comma
  | ':' => some .colon
  | _ => none

/-! A word is a longest run of the characters that numerals and the three names are made of. -/

def isWordChar (c : Char) : Bool :=
  c.isAlphanum || c = '+' || c = '-' || c = '.'

def ofWord? (word : List Char) : Option Token :=
  if word = "null".toList then some .null
  else if word = "true".toList then some (.bool true)
  else if word = "false".toList then some (.bool false)
  else if (numeral? word).isSome then some (.number word)
  else none

def tokens? : List Char → Option (List Token)
  | [] => some []
  | c :: rest =>
      if isSpace c then tokens? rest
      else
        match punctuation? c with
        | some token => (tokens? rest).map (token :: ·)
        | none =>
            if c = '\"' then
              match _found : stringLexeme? rest with
              | some (lexeme, after) => (tokens? after).map (.string lexeme :: ·)
              | none => none
            else
              match ofWord? (c :: rest.takeWhile isWordChar) with
              | some token => (tokens? (rest.dropWhile isWordChar)).map (token :: ·)
              | none => none
termination_by chars => chars.length
decreasing_by
  all_goals simp only [List.length_cons]
  · omega
  · omega
  · have := length_of_stringLexeme? ‹_›
    omega
  · have := (List.dropWhile_sublist (l := rest) isWordChar).length_le
    omega

end MemberStubs.Json
