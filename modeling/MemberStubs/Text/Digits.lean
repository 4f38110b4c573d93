namespace MemberStubs.Text

/-! Decimal digits. -/

def digitValue (c : Char) : Nat :=
  c.toNat - '0'.toNat

def natOfDigits (digits : List Char) : Nat :=
  digits.foldl (fun value digit => 10 * value + digitValue digit) 0

example : natOfDigits "0420".toList = 420 := by decide

/-- One or more digits, behind one optional plus sign. -/
def unsigned? (chars : List Char) : Option Nat :=
  let digits := match chars with
    | '+' :: rest => rest
    | _ => chars
  if digits.isEmpty || !digits.all Char.isDigit then none else some (natOfDigits digits)

def unsignedBelow? (limit : Nat) (chars : List Char) : Option Nat :=
  (unsigned? chars).filter (· < limit)

example : unsignedBelow? 100 "+0042".toList = some 42 := by decide

example : unsignedBelow? 100 "100".toList = none := by decide

/-! A floating-point numeral is an optional sign and then one of the words `inf`, `infinity` and
`nan` in any case, or digits with at most one point among them and an optional exponent. -/

def isUnsignedExponent (chars : List Char) : Bool :=
  !chars.isEmpty && chars.all Char.isDigit

def isExponent : List Char → Bool
  | [] => true
  | mark :: rest =>
      (mark = 'e' || mark = 'E') &&
        match rest with
        | '+' :: digits => isUnsignedExponent digits
        | '-' :: digits => isUnsignedExponent digits
        | digits => isUnsignedExponent digits

def isUnsignedNumeral (chars : List Char) : Bool :=
  let whole := chars.takeWhile Char.isDigit
  match chars.dropWhile Char.isDigit with
  | '.' :: rest =>
      let fraction := rest.takeWhile Char.isDigit
      !(whole.isEmpty && fraction.isEmpty) && isExponent (rest.dropWhile Char.isDigit)
  | rest => !whole.isEmpty && isExponent rest

def isNumeral (chars : List Char) : Bool :=
  let magnitude := match chars with
    | '+' :: rest => rest
    | '-' :: rest => rest
    | _ => chars
  isUnsignedNumeral magnitude ||
    ["inf".toList, "infinity".toList, "nan".toList].contains (magnitude.map Char.toLower)

example : ["1", "-1.5", ".5", "5.", "1e-3", "-Inf"].all (isNumeral ·.toList) = true := by decide

example : ["", "-", ".", "1e", "1_0", "0x1"].any (isNumeral ·.toList) = false := by decide

end MemberStubs.Text
