import MemberStubs.Json.Lexeme

/-! What is escaped is read as it was. A character is escaped by a mark behind a backslash, by four
hexadecimal digits, or not at all, and each of these forms is read by a step of its own. -/

namespace MemberStubs.Json

theorem escapeChar_cases (c : Char) :
    (∃ mark, escapeChar c = ['\\', mark] ∧ mark ≠ 'u' ∧ simpleEscape? mark = some c) ∨
      (escapeChar c = hexEscape c ∧ c.toNat < 0x20) ∨
      (escapeChar c = [c] ∧ c ≠ '\"' ∧ c ≠ '\\' ∧ ¬ c.toNat < 0x20) := by
  unfold escapeChar
  split
  · exact Or.inl ⟨'\"', rfl, by decide, rfl⟩
  · exact Or.inl ⟨'\\', rfl, by decide, rfl⟩
  · exact Or.inl ⟨'n', rfl, by decide, rfl⟩
  · exact Or.inl ⟨'r', rfl, by decide, rfl⟩
  · exact Or.inl ⟨'t', rfl, by decide, rfl⟩
  · exact Or.inl ⟨'b', rfl, by decide, rfl⟩
  · exact Or.inl ⟨'f', rfl, by decide, rfl⟩
  · next quote backslash _ _ _ _ _ =>
      split
      · next control => exact Or.inr (Or.inl ⟨rfl, control⟩)
      · next plain => exact Or.inr (Or.inr ⟨rfl, quote, backslash, plain⟩)

theorem hexValue?_digitChar : ∀ value < 0x20,
    hexValue? ['0', '0', Nat.digitChar (value / 16), Nat.digitChar (value % 16)] = some value := by
  decide

/-! ## The characters behind a lexeme -/

theorem codeUnits?_escapeChar (c : Char) (rest : List Char) :
    codeUnits? (escapeChar c ++ rest) = (codeUnits? rest).map (.char c :: ·) := by
  rcases escapeChar_cases c with ⟨mark, written, notHex, plain⟩ | ⟨written, control⟩ |
    ⟨written, _, backslash, _⟩
  · rw [written, List.cons_append, List.singleton_append, codeUnits?, plain]
    · cases codeUnits? rest <;> rfl
    · exact fun _ _ _ _ _ same => absurd same notHex
  · have unit : codeUnit c.toNat = .char c := by
      rw [codeUnit, if_neg (by omega), if_neg (by omega), Char.ofNat_toNat]
    rw [written, hexEscape]
    simp only [List.cons_append, List.nil_append, codeUnits?, hexValue?_digitChar _ control]
    rw [← unit]
    cases codeUnits? rest <;> rfl
  · rw [written, List.singleton_append, codeUnits?]
    · cases codeUnits? rest <;> rfl
    · exact fun _ _ _ _ _ same => absurd same backslash
    · exact fun _ _ same => absurd same backslash

theorem codeUnits?_escape (text : List Char) :
    codeUnits? (escape text) = some (text.map .char) := by
  induction text with
  | nil => rfl
  | cons c text induction =>
      have first : escape (c :: text) = escapeChar c ++ escape text := List.flatMap_cons
      rw [first, codeUnits?_escapeChar, induction]
      rfl

theorem unescape?_escape (text : List Char) : unescape? (escape text) = some text := by
  rw [unescape?, codeUnits?_escape, Option.bind_some]
  induction text with
  | nil => rfl
  | cons c text induction => rw [List.map_cons, joinSurrogates?, induction, Option.map_some]

/-! ## The end of a lexeme -/

theorem stringLexeme?_escapeChar (c : Char) (rest : List Char) :
    stringLexeme? (escapeChar c ++ rest) =
      (stringLexeme? rest).map fun found => (escapeChar c ++ found.1, found.2) := by
  rcases escapeChar_cases c with ⟨mark, written, notHex, plain⟩ | ⟨written, control⟩ |
    ⟨written, quote, backslash, space⟩
  · rw [written, List.cons_append, List.singleton_append, stringLexeme?, plain]
    · cases stringLexeme? rest <;> rfl
    · exact fun _ _ _ _ _ same => absurd same notHex
  · rw [written, hexEscape]
    simp only [List.cons_append, List.nil_append, stringLexeme?, hexValue?_digitChar _ control]
    cases stringLexeme? rest <;> rfl
  · rw [written, List.singleton_append, stringLexeme?, if_neg space]
    · cases stringLexeme? rest <;> rfl
    · exact quote
    · exact fun _ _ _ _ _ same => absurd same backslash
    · exact fun _ _ same => absurd same backslash

theorem stringLexeme?_escape (text rest : List Char) :
    stringLexeme? (escape text ++ '\"' :: rest) = some (escape text, rest) := by
  induction text with
  | nil => rfl
  | cons c text induction =>
      have first : escape (c :: text) = escapeChar c ++ escape text := List.flatMap_cons
      rw [first, List.append_assoc, stringLexeme?_escapeChar, induction, Option.map_some]

end MemberStubs.Json
