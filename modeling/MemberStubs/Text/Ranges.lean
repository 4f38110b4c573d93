namespace MemberStubs.Text

/-! A character class beyond ASCII is a list of code point ranges, ends included, in ascending
order. The order lets a search stop at the first range that begins too high. -/

def inRanges : List (Nat × Nat) → Nat → Bool
  | [], _ => false
  | (first, last) :: later, code =>
      if code < first then false else code ≤ last || inRanges later code

example : inRanges [(3, 5), (9, 9)] 9 = true := rfl

example : inRanges [(3, 5), (9, 9)] 6 = false := rfl

end MemberStubs.Text
