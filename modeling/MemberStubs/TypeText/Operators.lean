import MemberStubs.Text.Blank

namespace MemberStubs.TypeText

/-! The operators at the top level of a type's text. Every character stands at a depth: the number
of brackets open before it, less those closed. An arrow is a closing angle right behind an equals
sign, and it closes nothing. -/

structure Place where
  char : Char
  depth : Int
  isArrow : Bool
  deriving DecidableEq, Repr

def depthAfter (place : Place) : Int :=
  if ['(', '<', '[', '\x7b'].contains place.char then place.depth + 1
  else if place.isArrow then place.depth
  else if [')', '>', ']', '\x7d'].contains place.char then place.depth - 1
  else place.depth

def placesFrom (depth : Int) (previous : Option Char) : List Char → List Place
  | [] => []
  | c :: rest =>
      let place : Place := ⟨c, depth, c = '>' && previous = some '='⟩
      place :: placesFrom (depthAfter place) (some c) rest

def places (chars : List Char) : List Place :=
  placesFrom 0 none chars

theorem chars_placesFrom (depth : Int) (previous : Option Char) (chars : List Char) :
    (placesFrom depth previous chars).map Place.char = chars := by
  induction chars generalizing depth previous with
  | nil => rfl
  | cons c rest induction => simp [placesFrom, induction]

namespace Place

def isTop (place : Place) : Bool :=
  place.depth = 0

def isUnionMark (place : Place) : Bool :=
  place.isTop && place.char = '|'

def isTopArrow (place : Place) : Bool :=
  place.isTop && place.isArrow

end Place

/-- Whether an operator stands at the top level that binds weaker than a suffix does. -/
def needsParentheses (chars : List Char) : Bool :=
  (places chars).any fun place =>
    place.isTopArrow || place.isTop && ['|', '&', '?'].contains place.char

/-- An arrow at the top level makes the whole text a function type, unless a union mark comes
before it. -/
def isFunctionType (chars : List Char) : Bool :=
  ((places chars).find? fun place => place.isTopArrow || place.isUnionMark).any Place.isArrow

/-- The runs between the values that satisfy a test, empty runs included. -/
def runsBetween (test : α → Bool) : List α → List (List α)
  | [] => [[]]
  | value :: values =>
      if test value then [] :: runsBetween test values
      else
        match runsBetween test values with
        | [] => [[value]]
        | run :: runs => (value :: run) :: runs

/-- The members of a union that are not blank, without blanks around them. A text without a union
mark is its own only member. -/
def unionMembers (chars : List Char) : List (List Char) :=
  ((runsBetween Place.isUnionMark (places chars)).map fun run =>
    Text.trim (run.map Place.char)).filter (· ≠ [])

example : isFunctionType "(v: T) => A | null".toList = true := by decide

example : isFunctionType "A | (() => void)".toList = false := by decide

example : unionMembers "| Map<A | B> | 'c' ".toList = ["Map<A | B>".toList, "'c'".toList] := by
  decide

end MemberStubs.TypeText
