import MemberStubs.Text.Blank
import MemberStubs.TypeText.Quotes

namespace MemberStubs.TypeText

/-! The text of a type is cut into pieces: names that may stand for a type parameter, and all the
rest. A name stands for itself behind the dot of a qualified name, as the key of a property, and in
quotes; in a template only the holes are looked at, each one as a text of its own. -/

inductive Piece where
  | verbatim (chars : List Char)
  /-- Whether an opening bracket comes next decides if a replacement needs parentheses. -/
  | occurrence (name : List Char) (beforeBracket : Bool)
  deriving DecidableEq, Repr

def Piece.chars : Piece → List Char
  | .verbatim chars => chars
  | .occurrence name _ => name

def isNameStart (c : Char) : Bool :=
  Text.isAlphabetic c || c = '_' || c = '$'

def isNamePart (c : Char) : Bool :=
  Text.isAlphanumeric c || c = '_' || c = '$'

/-- A colon follows, or a question mark and a colon: what came before is the key of a property. -/
def startsAscription (chars : List Char) : Bool :=
  match Text.trimStart chars with
  | ':' :: _ => true
  | '?' :: rest => Text.nextVisible? rest = some ':'
  | _ => false

/-! What stands before a place in a text: the last character that is not blank, and the brackets
that are open, innermost first. The angle of an arrow closes nothing. -/

structure Context where
  previous : Option Char := none
  brackets : List Char := []

namespace Context

def isQualified (context : Context) : Bool :=
  context.previous = some '.'

def isKeyPosition (context : Context) : Bool :=
  context.brackets.head? = some '\x7b' &&
    [some '\x7b', some ',', some ';'].contains context.previous

def after (context : Context) (c : Char) : Context :=
  { context with previous := some c }

def afterMark (context : Context) (c : Char) : Context :=
  let brackets :=
    if ['(', '[', '\x7b', '<'].contains c then c :: context.brackets
    else if c = '>' ∧ context.previous = some '=' then context.brackets
    else if [')', ']', '\x7d', '>'].contains c then context.brackets.tail
    else context.brackets
  ⟨if Text.isBlank c then context.previous else some c, brackets⟩

end Context

theorem length_hole_le {chars hole : List Char}
    (found : .hole hole ∈ (splitTemplate chars).1) : hole.length ≤ chars.length := by
  have joined := congrArg List.length (splitTemplate_append chars)
  have part := (List.sublist_flatten_of_mem (List.mem_map_of_mem (f := TemplatePart.chars) found)).length_le
  simp only [List.length_append, List.flatMap] at joined
  simp only [TemplatePart.chars] at part
  omega

theorem length_splitTemplate_le (chars : List Char) :
    (splitTemplate chars).2.length ≤ chars.length := by
  have joined := congrArg List.length (splitTemplate_append chars)
  simp only [List.length_append] at joined
  omega

theorem length_dropWhile_le (test : α → Bool) (values : List α) :
    (values.dropWhile test).length ≤ values.length :=
  (List.dropWhile_sublist test).length_le

def piecesFrom (context : Context) : List Char → List Piece
  | [] => []
  | c :: rest =>
      if c = backquote then
        let inside := (splitTemplate rest).1.attach.flatMap fun
          | ⟨.text chars, _⟩ => [.verbatim chars]
          | ⟨.hole chars, _⟩ => piecesFrom {} chars
        .verbatim [c] :: inside ++ piecesFrom (context.after c) (splitTemplate rest).2
      else if isQuote c then
        .verbatim (c :: (splitQuoted c rest).1) ::
          piecesFrom (context.after c) (splitQuoted c rest).2
      else if isNameStart c then
        let name := c :: rest.takeWhile isNamePart
        let behind := rest.dropWhile isNamePart
        let piece :=
          if context.isQualified || (context.isKeyPosition && startsAscription behind) then
            Piece.verbatim name
          else .occurrence name (Text.nextVisible? behind = some '[')
        piece :: piecesFrom (context.after ((rest.takeWhile isNamePart).getLastD c)) behind
      else .verbatim [c] :: piecesFrom (context.afterMark c) rest
termination_by chars => chars.length
decreasing_by
  · have := length_hole_le ‹_›
    simp only [List.length_cons]
    omega
  · have := length_splitTemplate_le rest
    simp only [List.length_cons]
    omega
  · have := length_splitQuoted_le c rest
    simp only [List.length_cons]
    omega
  · have := length_dropWhile_le isNamePart rest
    simp only [List.length_cons]
    omega
  · simp

def pieces (text : String) : List Piece :=
  piecesFrom {} text.toList

end MemberStubs.TypeText
