import MemberStubs.Text.Ranges

namespace MemberStubs.Text

/-! The Unicode property White_Space, and the trimming that goes by it. -/

def blankRanges : List (Nat × Nat) :=
  [ (0x9, 0xD), (0x20, 0x20), (0x85, 0x85), (0xA0, 0xA0), (0x1680, 0x1680), (0x2000, 0x200A),
    (0x2028, 0x2029), (0x202F, 0x202F), (0x205F, 0x205F), (0x3000, 0x3000) ]

def isBlank (c : Char) : Bool :=
  inRanges blankRanges c.toNat

/-- Every blank of the core library is blank here. -/
example : [' ', '\t', '\r', '\n'].all isBlank = true := by decide

def trimStart (chars : List Char) : List Char :=
  chars.dropWhile isBlank

def trim (chars : List Char) : List Char :=
  (trimStart (trimStart chars).reverse).reverse

example : trim " a b\n".toList = "a b".toList := by decide

/-- The first character that is not blank. -/
def nextVisible? (chars : List Char) : Option Char :=
  (trimStart chars).head?

def trimmed (text : String) : String :=
  String.ofList (trim text.toList)

end MemberStubs.Text
