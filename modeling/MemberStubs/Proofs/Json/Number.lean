import Mathlib.Data.List.TakeWhile
import MemberStubs.Json.Number

/-! The written form of a natural number is a numeral, and is read as the number. -/

namespace MemberStubs.Json

theorem isDigit_of_mem_ofNatural {value : Nat} {c : Char} (member : c ∈ ofNatural value) :
    c.isDigit = true :=
  Nat.isDigit_of_mem_toDigits (by decide) (by decide) member

theorem natural?_ofNatural (value : Nat) : natural? (ofNatural value) = some value := by
  have digits : (ofNatural value).all Char.isDigit = true :=
    List.all_eq_true.mpr fun _ => isDigit_of_mem_ofNatural
  rw [natural?, if_pos ⟨Nat.toDigits_ne_nil, digits⟩, Text.natOfDigits, ofNatural]
  have read := Nat.ofDigitChars_ten_toDigits (n := value)
  rw [Nat.ofDigitChars_eq_foldl] at read
  exact congrArg some read

/-- Zero is the only number whose numeral begins with a zero. -/
theorem head?_ofNatural {value : Nat} (zero : (ofNatural value).head? = some '0') : value = 0 := by
  rw [ofNatural] at zero
  induction value using Nat.strongRecOn with
  | ind value induction =>
      rw [Nat.toDigits_eq_if (by decide)] at zero
      split at zero
      · next small =>
          have digits : ∀ digit < 10, Nat.digitChar digit = '0' → digit = 0 := by decide
          exact digits value small (Option.some.inj zero)
      · next large =>
          rw [List.head?_append, Option.or_of_isSome (by simp)] at zero
          have := induction (value / 10) (by omega) zero
          omega

theorem numeral?_ofNatural (value : Nat) :
    numeral? (ofNatural value) = some ⟨false, ofNatural value, [], 0⟩ := by
  have digits := fun c (member : c ∈ ofNatural value) => isDigit_of_mem_ofNatural member
  have whole : (ofNatural value).takeWhile Char.isDigit = ofNatural value :=
    List.takeWhile_eq_self_iff.mpr digits
  have nothing : (ofNatural value).dropWhile Char.isDigit = [] :=
    List.dropWhile_eq_nil_iff.mpr digits
  have leading : ¬ (ofNatural value = [] ∨
      ((ofNatural value).head? = some '0' ∧ (ofNatural value).length ≠ 1)) := by
    rintro (empty | ⟨zero, long⟩)
    · exact Nat.toDigits_ne_nil empty
    · cases head?_ofNatural zero
      exact long rfl
  have unsigned : ∀ rest, ofNatural value = '-' :: rest → False := by
    intro rest written
    cases digits '-' (by rw [written]; exact List.mem_cons_self ..)
  rw [numeral?, whole, nothing, if_neg leading]
  · rfl
  · exact unsigned

end MemberStubs.Json
