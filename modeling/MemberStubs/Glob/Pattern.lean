namespace MemberStubs.Glob

/-! Patterns for one name. A star stands for any run of characters, a question mark for one character,
and brackets for one character out of a set, or out of all others behind an exclamation mark. Two
stars that are a whole part of a path stand for any number of directories. -/

/-- One character, or all from the first to the last. -/
structure CharRange where
  first : Char
  last : Char
  deriving DecidableEq, Repr

inductive Token where
  | literal (c : Char)
  | anyChar
  | anyRun
  | oneOf (ranges : List CharRange)
  | noneOf (ranges : List CharRange)
  deriving DecidableEq, Repr

/-- A hyphen between two characters makes a range of them. -/
def ranges : List Char → List CharRange
  | a :: '-' :: b :: rest => ⟨a, b⟩ :: ranges rest
  | c :: rest => ⟨c, c⟩ :: ranges rest
  | [] => []

/-- The set behind an opening bracket, and what follows its end. A closing bracket that comes first
belongs to the set. -/
def set? (chars : List Char) : Option (List Char × List Char) :=
  match chars with
  | [] => none
  | c :: rest =>
      match rest.dropWhile (· ≠ ']') with
      | [] => none
      | _ :: after => some (c :: rest.takeWhile (· ≠ ']'), after)

theorem length_of_set? {chars inside after : List Char} (found : set? chars = some (inside, after)) :
    after.length < chars.length := by
  unfold set? at found
  split at found
  · cases found
  · next c rest =>
      split at found
      · cases found
      · next _ later split =>
          have := (List.dropWhile_sublist (l := rest) (· ≠ ']')).length_le
          rw [split] at this
          cases found
          simp only [List.length_cons] at this ⊢
          omega

/-- Two stars in a row and brackets without an end are refused. -/
def tokens? : List Char → Option (List Token)
  | [] => some []
  | '?' :: rest => (tokens? rest).map (.anyChar :: ·)
  | '*' :: rest => if rest.head? = some '*' then none else (tokens? rest).map (.anyRun :: ·)
  | '[' :: '!' :: rest =>
      match _found : set? rest with
      | some (inside, after) => (tokens? after).map (.noneOf (ranges inside) :: ·)
      | none => none
  | '[' :: rest =>
      match _found : set? rest with
      | some (inside, after) => (tokens? after).map (.oneOf (ranges inside) :: ·)
      | none => none
  | c :: rest => (tokens? rest).map (.literal c :: ·)
termination_by chars => chars.length
decreasing_by
  · simp
  · simp
  · have := length_of_set? _found
    simp only [List.length_cons]
    omega
  · have := length_of_set? _found
    simp only [List.length_cons]
    omega
  · simp

def CharRange.contains (range : CharRange) (c : Char) : Bool :=
  range.first ≤ c && c ≤ range.last

namespace Token

def accepts (token : Token) (c : Char) : Bool :=
  match token with
  | .literal expected => expected = c
  | .anyChar => true
  | .anyRun => false
  | .oneOf ranges => ranges.any fun range => range.contains c
  | .noneOf ranges => !ranges.any fun range => range.contains c

end Token

/-- All ways to go on behind a star are tried, the shortest run first. -/
def matchesName : List Token → List Char → Bool
  | [], name => name.isEmpty
  | .anyRun :: tokens, [] => matchesName tokens []
  | .anyRun :: tokens, c :: rest =>
      matchesName tokens (c :: rest) || matchesName (.anyRun :: tokens) rest
  | _ :: _, [] => false
  | token :: tokens, c :: rest => token.accepts c && matchesName tokens rest
termination_by tokens name => tokens.length + name.length

/-! A part of a pattern stands for one name or, if it is two stars, for a way down. A name without a
special character is looked up and not compared. -/

inductive Part where
  | name (text : String)
  | pattern (tokens : List Token)
  | anyDepth
  deriving DecidableEq, Repr

def literal? : List Token → Option (List Char)
  | [] => some []
  | .literal c :: tokens => (literal? tokens).map (c :: ·)
  | _ => none

def part? (chars : List Char) : Option Part :=
  if chars = ['*', '*'] then some .anyDepth
  else
    (tokens? chars).map fun tokens =>
      match literal? tokens with
      | some text => .name (String.ofList text)
      | none => .pattern tokens

example : (part? "a[!x-z]*".toList).map (fun part =>
    match part with
    | .pattern tokens => ["ab", "ay", "abc"].map fun name => matchesName tokens name.toList
    | _ => []) = some [true, false, true] := by
  decide +kernel

end MemberStubs.Glob
