import MemberStubs.Toml.Quoted

namespace MemberStubs.Toml

/-! Tokens. Spaces, tabs and comments separate them; the ends of lines are tokens of their own. -/

inductive Token where
  /-- A run of letters, digits, underscores, hyphens and plus signs. -/
  | bare (chars : List Char)
  | quoted (text : List Char) (multiline : Bool)
  | mark (c : Char)
  | lineEnd
  deriving DecidableEq, Repr

def isMark (c : Char) : Bool :=
  ['[', ']', '\x7b', '\x7d', '=', '.', ','].contains c

def isBareChar (c : Char) : Bool :=
  c.isAlphanum || c = '_' || c = '-' || c = '+'

def isInLine (c : Char) : Bool :=
  c ≠ '\n' && c ≠ '\r'

def tokens? : List Char → Option (List Token)
  | [] => some []
  | c :: rest =>
      if c = ' ' ∨ c = '\t' then tokens? rest
      else if c = '\n' then (tokens? rest).map (.lineEnd :: ·)
      else if c = '\r' then
        if rest.head? = some '\n' then (tokens? rest.tail).map (.lineEnd :: ·) else none
      else if c = '#' then
        if (rest.takeWhile isInLine).all isPlain then tokens? (rest.dropWhile isInLine) else none
      else if isMark c then (tokens? rest).map (.mark c :: ·)
      else if c = '\"' ∨ c = '\x27' then
        match _found : quoted? c rest with
        | some (text, multiline, after) => (tokens? after).map (.quoted text multiline :: ·)
        | none => none
      else if isBareChar c then
        (tokens? (rest.dropWhile isBareChar)).map (.bare (c :: rest.takeWhile isBareChar) :: ·)
      else none
termination_by chars => chars.length
decreasing_by
  all_goals simp only [List.length_cons, List.length_tail]
  · omega
  · omega
  · omega
  · have := (List.dropWhile_sublist (l := rest) isInLine).length_le
    omega
  · omega
  · have := length_of_quoted? ‹_›
    omega
  · have := (List.dropWhile_sublist (l := rest) isBareChar).length_le
    omega

example : tokens? "[a] # c\nb.'d' = 1".toList =
    some [ .mark '[', .bare ['a'], .mark ']', .lineEnd, .bare ['b'], .mark '.',
      .quoted ['d'] false, .mark '=', .bare ['1'] ] := by
  decide +kernel

/-- A key is a bare word without a plus sign, or a quoted text of one line. -/
def Token.key? : Token → Option String
  | .bare chars => if chars.contains '+' then none else some (String.ofList chars)
  | .quoted text false => some (String.ofList text)
  | _ => none

/-! ## Numbers

Underscores may stand between digits. A decimal number may have a plus sign, and no leading zero; a
prefixed one has neither. Zero may even have a minus sign. -/

def digitsValue? (base : Nat) (digits : List Char) : Option Nat :=
  digits.foldlM (fun value digit =>
    ((Json.hexDigit? digit).filter (· < base)).map (base * value + ·)) 0

/-- Digits without the underscores that stand between two of them. -/
def joinedDigits? : List Char → Option (List Char)
  | [] => none
  | [c] => if c = '_' then none else some [c]
  | c :: '_' :: rest => if c = '_' then none else (joinedDigits? rest).map (c :: ·)
  | c :: rest => if c = '_' then none else (joinedDigits? rest).map (c :: ·)

def prefixed? (base : Nat) (digits : List Char) : Option Nat :=
  (joinedDigits? digits).bind (digitsValue? base)

def decimal? (digits : List Char) : Option Nat := do
  let digits ← joinedDigits? digits
  if digits.head? = some '0' ∧ digits.length ≠ 1 then none else digitsValue? 10 digits

def natural? : List Char → Option Nat
  | '0' :: 'x' :: digits => prefixed? 16 digits
  | '0' :: 'o' :: digits => prefixed? 8 digits
  | '0' :: 'b' :: digits => prefixed? 2 digits
  | '+' :: digits => decimal? digits
  | ['-', '0'] => some 0
  | digits => decimal? digits

example : natural? "0x1_F".toList = some 31 := by decide +kernel

example : ["007", "1__0", "-1", "1_"].map (natural? ·.toList) = [none, none, none, none] := by
  decide +kernel

end MemberStubs.Toml
