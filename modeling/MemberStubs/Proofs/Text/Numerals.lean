import Mathlib.Data.List.TakeWhile
import MemberStubs.Text.Digits

/-! The characters of floating-point numerals. -/

namespace MemberStubs.Text

def isNumeralChar (c : Char) : Bool :=
  c.isAlphanum || ['+', '-', '.'].contains c

theorem isNumeralChar_of_isDigit {c : Char} (digit : c.isDigit = true) : isNumeralChar c = true := by
  simp [isNumeralChar, Char.isAlphanum, digit]

theorem isNumeralChar_of_toLower {c : Char} (alpha : c.toLower.isAlpha = true) :
    isNumeralChar c = true := by
  cases upper : c.isUpper with
  | true =>
      have alpha : c.isAlpha = true := Bool.or_eq_true_iff.mpr (.inl upper)
      simp [isNumeralChar, Char.isAlphanum, alpha]
  | false =>
      have same : c.toLower = c := dif_neg (of_decide_eq_false upper)
      simp [isNumeralChar, Char.isAlphanum, same ▸ alpha]

section

variable {chars : List Char}

theorem isNumeralChar_of_isUnsignedExponent (exponent : isUnsignedExponent chars = true) :
    ∀ c ∈ chars, isNumeralChar c = true := by
  rw [isUnsignedExponent, Bool.and_eq_true, List.all_eq_true] at exponent
  exact fun c member => isNumeralChar_of_isDigit (exponent.2 c member)

theorem isNumeralChar_of_isExponent (exponent : isExponent chars = true) :
    ∀ c ∈ chars, isNumeralChar c = true := by
  cases chars with
  | nil => exact nofun
  | cons mark rest =>
      unfold isExponent at exponent
      rw [Bool.and_eq_true, Bool.or_eq_true, decide_eq_true_eq, decide_eq_true_eq]
        at exponent
      rcases exponent with ⟨letter, digits⟩
      refine List.forall_mem_cons.mpr ⟨by rcases letter with rfl | rfl <;> decide, ?_⟩
      split at digits
      · exact List.forall_mem_cons.mpr ⟨by decide, isNumeralChar_of_isUnsignedExponent digits⟩
      · exact List.forall_mem_cons.mpr ⟨by decide, isNumeralChar_of_isUnsignedExponent digits⟩
      · exact isNumeralChar_of_isUnsignedExponent digits

theorem isNumeralChar_of_isUnsignedNumeral (numeral : isUnsignedNumeral chars = true) :
    ∀ c ∈ chars, isNumeralChar c = true := by
  have digits (chars : List Char) : ∀ c ∈ chars.takeWhile Char.isDigit, isNumeralChar c = true :=
    fun c member => isNumeralChar_of_isDigit (List.mem_takeWhile_imp member)
  rw [← List.takeWhile_append_dropWhile (p := Char.isDigit) (l := chars), List.forall_mem_append]
  refine ⟨digits chars, ?_⟩
  rw [isUnsignedNumeral] at numeral
  split at numeral
  · next rest point =>
      rw [point]
      refine List.forall_mem_cons.mpr ⟨by decide, ?_⟩
      rw [← List.takeWhile_append_dropWhile (p := Char.isDigit) (l := rest), List.forall_mem_append]
      exact ⟨digits rest, isNumeralChar_of_isExponent (Bool.and_eq_true_iff.mp numeral).2⟩
  · exact isNumeralChar_of_isExponent (Bool.and_eq_true_iff.mp numeral).2

theorem isNumeralChar_of_isNumeral (numeral : isNumeral chars = true) :
    ∀ c ∈ chars, isNumeralChar c = true := by
  have magnitude {chars : List Char} (numeral : (isUnsignedNumeral chars ||
      ["inf".toList, "infinity".toList, "nan".toList].contains (chars.map Char.toLower)) = true) :
      ∀ c ∈ chars, isNumeralChar c = true := by
    rcases Bool.or_eq_true_iff.mp numeral with plain | word
    · exact isNumeralChar_of_isUnsignedNumeral plain
    · intro c member
      have letters : ∀ word ∈ ["inf".toList, "infinity".toList, "nan".toList],
          word.all Char.isAlpha = true := by
        decide
      have known := List.all_eq_true.mp (letters _ (by simpa using word))
      exact isNumeralChar_of_toLower (known _ (List.mem_map_of_mem member))
  unfold isNumeral at numeral
  dsimp only at numeral
  split at numeral
  · exact List.forall_mem_cons.mpr ⟨by decide, magnitude numeral⟩
  · exact List.forall_mem_cons.mpr ⟨by decide, magnitude numeral⟩
  · exact magnitude numeral

end

end MemberStubs.Text
