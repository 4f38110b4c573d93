import MemberStubs.Proofs.Text.Numerals
import MemberStubs.Proofs.TypeText.Names

/-! Numeric literals as types have them: with or without a sign, a point, an exponent or a base of
their own, and of any size. -/

namespace MemberStubs.TypeValue

/-- One digit or more. An underscore may stand in front of any but the first. -/
structure Digits (isDigit : Char → Bool) where
  first : { c : Char // isDigit c = true }
  later : List (Bool × { c : Char // isDigit c = true })

def Digits.chars (digits : Digits isDigit) : List Char :=
  digits.first :: digits.later.flatMap fun (isApart, c) => if isApart then ['_', c] else [c]

/-- A number has no zero in front of other digits. -/
inductive Whole where
  | zero
  | positive (digits : Digits Char.isDigit) (nonZero : digits.first.val ≠ '0')

def Whole.chars : Whole → List Char
  | .zero => ['0']
  | .positive digits _ => digits.chars

inductive Mantissa where
  | plain (whole : Whole)
  | pointed (whole : Whole) (fraction : Option (Digits Char.isDigit))
  | fractional (digits : Digits Char.isDigit)

def Mantissa.chars : Mantissa → List Char
  | .plain whole => whole.chars
  | .pointed whole fraction => whole.chars ++ '.' :: fraction.elim [] Digits.chars
  | .fractional digits => '.' :: digits.chars

inductive Sign where
  | plus
  | minus

def Sign.char : Sign → Char
  | .plus => '+'
  | .minus => '-'

structure Exponent where
  isUpper : Bool
  sign : Option Sign
  digits : Digits Char.isDigit

def Exponent.chars (exponent : Exponent) : List Char :=
  (if exponent.isUpper then 'E' else 'e') ::
    (exponent.sign.toList.map Sign.char ++ exponent.digits.chars)

inductive Base where
  | binary
  | octal
  | hexadecimal

namespace Base

def letter : Base → Char
  | binary => 'b'
  | octal => 'o'
  | hexadecimal => 'x'

def digitChars : Base → List Char
  | binary => "01".toList
  | octal => "01234567".toList
  | hexadecimal => "0123456789abcdefABCDEF".toList

end Base

/-- Digits of a base behind a mark that tells it. -/
structure Based where
  base : Base
  isUpper : Bool
  digits : Digits base.digitChars.contains

def Based.chars (based : Based) : List Char :=
  '0' :: (if based.isUpper then based.base.letter.toUpper else based.base.letter) ::
    based.digits.chars

inductive Magnitude where
  | decimal (mantissa : Mantissa) (exponent : Option Exponent)
  | ofBase (based : Based)
  | big (whole : Whole)
  | bigOfBase (based : Based)

namespace Magnitude

def chars : Magnitude → List Char
  | decimal mantissa exponent => mantissa.chars ++ exponent.elim [] Exponent.chars
  | ofBase based => based.chars
  | big whole => whole.chars ++ ['n']
  | bigOfBase based => based.chars ++ ['n']

def isBig : Magnitude → Bool
  | decimal .. => false
  | ofBase _ => false
  | big _ => true
  | bigOfBase _ => true

end Magnitude

structure Numeral where
  isNegative : Bool
  magnitude : Magnitude

namespace Numeral

def chars (numeral : Numeral) : List Char :=
  (if numeral.isNegative then ['-'] else []) ++ numeral.magnitude.chars

def isBig (numeral : Numeral) : Bool :=
  numeral.magnitude.isBig

def zero : Numeral :=
  ⟨false, .decimal (.plain .zero) none⟩

def bigZero : Numeral :=
  ⟨false, .big .zero⟩

end Numeral

/-! ## The characters of numerals -/

def isNumeralPart (c : Char) : Bool :=
  Text.isNumeralChar c || c = '_'

def isNumeralStart (c : Char) : Bool :=
  c.isDigit || ['-', '.'].contains c

def AreParts (chars : List Char) : Prop :=
  ∀ c ∈ chars, isNumeralPart c = true

/-- What every numeral is to a reader who looks at one character at a time. -/
structure LooksNumeric (chars : List Char) : Prop where
  parts : AreParts chars
  begins : ∃ c rest, chars = c :: rest ∧ isNumeralStart c = true

theorem AreParts.append {first second : List Char} (parts : AreParts first)
    (parts' : AreParts second) : AreParts (first ++ second) :=
  List.forall_mem_append.mpr ⟨parts, parts'⟩

theorem AreParts.cons {c : Char} {rest : List Char} (part : isNumeralPart c = true)
    (parts : AreParts rest) : AreParts (c :: rest) :=
  List.forall_mem_cons.mpr ⟨part, parts⟩

theorem LooksNumeric.append {first second : List Char} (looks : LooksNumeric first)
    (parts : AreParts second) : LooksNumeric (first ++ second) := by
  rcases looks.begins with ⟨c, rest, rfl, starts⟩
  exact ⟨looks.parts.append parts, c, rest ++ second, rfl, starts⟩

theorem isNumeralPart_of_isDigit {c : Char} (digit : c.isDigit = true) :
    isNumeralPart c = true := by
  rw [isNumeralPart, Text.isNumeralChar_of_isDigit digit, Bool.true_or]

theorem isNumeralPart_of_isNumeralStart {c : Char} (starts : isNumeralStart c = true) :
    isNumeralPart c = true := by
  rcases Bool.or_eq_true_iff.mp starts with digit | mark
  · exact isNumeralPart_of_isDigit digit
  · have all : ['-', '.'].all isNumeralPart = true := by decide
    exact List.all_eq_true.mp all c (List.contains_iff_mem.mp mark)

theorem mem_of_isNumeralStart {c : Char} (starts : isNumeralStart c = true) :
    c ∈ "0123456789-.".toList := by
  rcases Bool.or_eq_true_iff.mp starts with digit | mark
  · have codes : ∀ code ∈ List.range' 0x30 10, Char.ofNat code ∈ "0123456789-.".toList := by decide
    have code : c.toNat ∈ List.range' 0x30 10 := by
      simp only [Char.isDigit, Bool.and_eq_true, decide_eq_true_eq, ge_iff_le,
        UInt32.le_iff_toNat_le] at digit
      exact List.mem_range'_1.mpr ⟨digit.1, Nat.lt_succ_of_le digit.2⟩
    have here := codes c.toNat code
    rwa [Char.ofNat_toNat] at here
  · have all : ['-', '.'] ⊆ "0123456789-.".toList := by decide
    exact all (List.contains_iff_mem.mp mark)

theorem Digits.areParts {isDigit : Char → Bool} (digits : Digits isDigit)
    (part : ∀ c, isDigit c = true → isNumeralPart c = true) : AreParts digits.chars := by
  refine .cons (part _ digits.first.property) fun c member => ?_
  rcases List.mem_flatMap.mp member with ⟨⟨isApart, digit⟩, _, inside⟩
  have here := part _ digit.property
  cases isApart with
  | false => rwa [List.mem_singleton.mp inside]
  | true =>
      rcases List.mem_cons.mp inside with rfl | inside
      · rfl
      · rwa [List.mem_singleton.mp inside]

theorem Digits.looksNumeric (digits : Digits Char.isDigit) : LooksNumeric digits.chars :=
  ⟨digits.areParts fun _ => isNumeralPart_of_isDigit, digits.first, _, rfl, by
    rw [isNumeralStart, digits.first.property, Bool.true_or]⟩

theorem Whole.looksNumeric (whole : Whole) : LooksNumeric whole.chars := by
  cases whole with
  | zero => exact ⟨List.forall_mem_singleton.mpr rfl, '0', [], rfl, rfl⟩
  | positive digits _ => exact digits.looksNumeric

theorem Mantissa.looksNumeric (mantissa : Mantissa) : LooksNumeric mantissa.chars := by
  cases mantissa with
  | plain whole => exact whole.looksNumeric
  | pointed whole fraction =>
      refine whole.looksNumeric.append (.cons rfl ?_)
      cases fraction with
      | none => exact nofun
      | some digits => exact digits.looksNumeric.parts
  | fractional digits => exact ⟨.cons rfl digits.looksNumeric.parts, '.', _, rfl, rfl⟩

theorem Exponent.areParts (exponent : Exponent) : AreParts exponent.chars := by
  refine .cons (by cases exponent.isUpper <;> rfl) (.append ?_ exponent.digits.looksNumeric.parts)
  rcases exponent.sign with _ | _ | _
  · exact nofun
  · exact List.forall_mem_singleton.mpr rfl
  · exact List.forall_mem_singleton.mpr rfl

theorem Based.looksNumeric (based : Based) : LooksNumeric based.chars := by
  refine ⟨.cons rfl (.cons ?_ (based.digits.areParts fun c digit => ?_)), '0', _, rfl, rfl⟩
  · cases based.base <;> cases based.isUpper <;> decide
  · have all (base : Base) : base.digitChars.all isNumeralPart = true := by
      cases base <;> decide
    exact List.all_eq_true.mp (all based.base) c (List.contains_iff_mem.mp digit)

theorem Magnitude.looksNumeric (magnitude : Magnitude) : LooksNumeric magnitude.chars := by
  have letter : AreParts ['n'] := List.forall_mem_singleton.mpr rfl
  cases magnitude with
  | decimal mantissa exponent =>
      refine mantissa.looksNumeric.append ?_
      cases exponent with
      | none => exact nofun
      | some exponent => exact exponent.areParts
  | ofBase based => exact based.looksNumeric
  | big whole => exact whole.looksNumeric.append letter
  | bigOfBase based => exact based.looksNumeric.append letter

theorem Numeral.looksNumeric (numeral : Numeral) : LooksNumeric numeral.chars := by
  have magnitude := numeral.magnitude.looksNumeric
  rw [chars]
  cases numeral.isNegative with
  | false => exact magnitude
  | true => exact ⟨.cons rfl magnitude.parts, '-', _, rfl, rfl⟩

end MemberStubs.TypeValue
