import MemberStubs.Text.Digits

namespace MemberStubs.Json

/-! Numerals: an optional minus sign, a whole part without leading zeros, an optional fraction and
an optional exponent. -/

structure Numeral where
  negative : Bool
  whole : List Char
  fraction : List Char
  exponent : Int

def signedExponent (negative : Bool) (digits : List Char) : Int :=
  let value : Int := Text.natOfDigits digits
  if negative then -value else value

def exponent? : List Char → Option Int
  | [] => some 0
  | mark :: rest =>
      if mark = 'e' ∨ mark = 'E' then
        let (negative, digits) := match rest with
          | '+' :: digits => (false, digits)
          | '-' :: digits => (true, digits)
          | digits => (false, digits)
        if digits.isEmpty || !digits.all Char.isDigit then none
        else some (signedExponent negative digits)
      else none

def numeral? (lexeme : List Char) : Option Numeral := do
  let (negative, magnitude) := match lexeme with
    | '-' :: rest => (true, rest)
    | _ => (false, lexeme)
  let whole := magnitude.takeWhile Char.isDigit
  if whole = [] ∨ (whole.head? = some '0' ∧ whole.length ≠ 1) then none
  match magnitude.dropWhile Char.isDigit with
  | '.' :: rest =>
      let fraction := rest.takeWhile Char.isDigit
      if fraction = [] then none
      let exponent ← exponent? (rest.dropWhile Char.isDigit)
      some ⟨negative, whole, fraction, exponent⟩
  | rest =>
      let exponent ← exponent? rest
      some ⟨negative, whole, [], exponent⟩

/-- The numeral of a natural number has digits only. -/
def natural? (lexeme : List Char) : Option Nat :=
  if lexeme ≠ [] ∧ lexeme.all Char.isDigit then some (Text.natOfDigits lexeme) else none

def ofNatural (value : Nat) : List Char :=
  Nat.toDigits 10 value

/-! Range. A numeral is read in double precision. Its digits count as long as they fit into 64 bits;
the digits of the whole part that do not fit any more only raise the power of ten. The significand
and the power of ten are rounded before they are multiplied, so that some numerals a little below
the greatest double are out of range as well. -/

/-- Puts digits behind a significand as long as there is room for them, and gives those that are
left. -/
def appendDigits (significand : Nat) : List Char → Nat × List Char
  | [] => (significand, [])
  | digit :: digits =>
      let longer := 10 * significand + Text.digitValue digit
      if longer < UInt64.size then appendDigits longer digits else (significand, digit :: digits)

/-- The significand, and the exponent of the power of ten that belongs to it. -/
def Numeral.scaled (numeral : Numeral) : Nat × Int :=
  let (whole, unread) := appendDigits 0 numeral.whole
  let (significand, ignored) := appendDigits whole numeral.fraction
  (significand, numeral.exponent + unread.length - (numeral.fraction.length - ignored.length))

/-- The nearest number that has at most 53 significant bits, of two the even one. -/
def nearestDouble (value : Nat) : Nat :=
  let unit := Nat.pow 2 (value.log2 - 52)
  let units := value / unit
  let rest := value % unit
  if unit < 2 * rest ∨ (2 * rest = unit ∧ units % 2 = 1) then (units + 1) * unit else units * unit

def Numeral.isFinite (numeral : Numeral) : Bool :=
  let (significand, exponent) := numeral.scaled
  -- A division never overflows, and 308 belongs to the last power of ten that is a double.
  if exponent < 0 then true
  else if exponent > 308 then significand = 0
  else
    let power := Nat.pow 10 exponent.toNat
    nearestDouble (nearestDouble significand * nearestDouble power) < Nat.pow 2 1024

def isFiniteNumeral (lexeme : List Char) : Bool :=
  (numeral? lexeme).any Numeral.isFinite

example : natural? "18446744073709551615".toList = some (2 ^ 64 - 1) := by decide

example : isFiniteNumeral "-1.5e+300".toList = true := by decide +kernel

example : isFiniteNumeral "1e309".toList = false := by decide +kernel

example : ["1.7976931348623157e308", "1.797693134862315700e308"].map (isFiniteNumeral ·.toList) =
    [true, false] := by
  decide +kernel

end MemberStubs.Json
