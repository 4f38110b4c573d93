import MemberStubs.Text.Offset
import MemberStubs.Text.Utf8
import Mathlib.Data.List.Basic

/-! A text and its bytes determine each other, and offsets are offsets of bytes. A byte below 128 is
a character of its own, so a text can be cut behind it. -/

namespace MemberStubs.Text

theorem toList_loop (bytes : ByteArray) (index : Nat) (before : List UInt8) :
    ByteArray.toList.loop bytes index before = before.reverse ++ bytes.data.toList.drop index := by
  fun_induction ByteArray.toList.loop bytes index before with
  | case1 index before inside induction =>
      have split : bytes.data.toList.drop index =
          bytes.data[index] :: bytes.data.toList.drop (index + 1) := by
        rw [List.drop_eq_getElem_cons (by simpa using inside)]
        rfl
      rw [induction, split]
      simp [ByteArray.get!, inside]
  | case2 index before outside =>
      rw [List.drop_of_length_le (by simpa using outside), List.append_nil]

theorem utf8Bytes_eq (text : String) : utf8Bytes text = text.toByteArray.data.toList :=
  toList_loop text.toByteArray 0 []

theorem utf8Bytes_ofList (chars : List Char) :
    utf8Bytes (String.ofList chars) = chars.flatMap String.utf8EncodeChar := by
  rw [utf8Bytes_eq, String.toByteArray_ofList, List.utf8Encode, List.data_toByteArray]

/-- Reading bytes as a text and writing a text as bytes undo each other. -/
theorem ofUtf8?_eq_some_iff {bytes : List UInt8} {text : String} :
    ofUtf8? bytes = some text ↔ utf8Bytes text = bytes := by
  rw [ofUtf8?, String.fromUTF8?, utf8Bytes_eq]
  constructor
  · intro read
    split at read
    · cases read
      rfl
    · cases read
  · rintro rfl
    exact dif_pos text.isValidUTF8

theorem utf8Bytes_inj {first second : String} :
    utf8Bytes first = utf8Bytes second ↔ first = second := by
  constructor
  · intro same
    have read := ofUtf8?_eq_some_iff.mpr same
    rw [ofUtf8?_eq_some_iff.mpr rfl] at read
    exact (Option.some.inj read).symm
  · intro same
    rw [same]

theorem length_utf8Bytes_ofList (chars : List Char) :
    (utf8Bytes (String.ofList chars)).length = byteLength chars := by
  rw [utf8Bytes_ofList]
  induction chars with
  | nil => rfl
  | cons c chars induction =>
      rw [List.flatMap_cons, List.length_append, induction, String.length_utf8EncodeChar,
        byteLength_cons]

/-! ## Bytes of characters -/

/-- Only a character below 128 has such a byte, and it has no other. -/
theorem utf8EncodeChar_of_mem {c : Char} {byte : UInt8} (low : byte.toNat < 128)
    (member : byte ∈ String.utf8EncodeChar c) :
    String.utf8EncodeChar c = [byte] ∧ c.toNat = byte.toNat := by
  unfold String.utf8EncodeChar at member ⊢
  simp only at member ⊢
  split at member
  · next small =>
      rw [if_pos small, List.mem_singleton.mp member]
      refine ⟨rfl, ?_⟩
      rw [UInt8.toNat_ofNat_of_lt' (Nat.lt_of_le_of_lt small (by decide)), Char.toNat_val]
  · apply absurd low
    split at member
    · simp only [List.mem_cons, List.not_mem_nil, or_false] at member
      rcases member with rfl | rfl <;> simp only [UInt8.toNat_ofNat'] <;> omega
    · split at member <;> simp only [List.mem_cons, List.not_mem_nil, or_false] at member
      · rcases member with rfl | rfl | rfl <;> simp only [UInt8.toNat_ofNat'] <;> omega
      · rcases member with rfl | rfl | rfl | rfl <;> simp only [UInt8.toNat_ofNat'] <;> omega

/-- Behind a byte below 128 a text can be cut, and the byte is the last character before the cut. -/
theorem getElem?_utf8Bytes_eq_some_iff {chars : List Char} {c : Char} (low : c.toNat < 128)
    {offset : Nat} :
    (utf8Bytes (String.ofList chars))[offset]? = some (UInt8.ofNat c.toNat) ↔
      ∃ before after, before ++ c :: after = chars ∧ byteLength before = offset := by
  have single : String.utf8EncodeChar c = [UInt8.ofNat c.toNat] :=
    if_pos (Nat.le_of_lt_succ low)
  rw [utf8Bytes_ofList]
  constructor
  · intro found
    induction chars generalizing offset with
    | nil => simp at found
    | cons d chars induction =>
        rw [List.flatMap_cons, List.getElem?_append] at found
        split at found
        · next inside =>
            have lowByte : (UInt8.ofNat c.toNat).toNat = c.toNat :=
              UInt8.toNat_ofNat_of_lt' (Nat.lt_trans low (by decide))
            rcases utf8EncodeChar_of_mem (by rw [lowByte]; exact low)
              (List.mem_of_getElem? found) with ⟨alone, same⟩
            have isFirst : offset = 0 := by
              rw [alone, List.length_singleton] at inside
              omega
            refine ⟨[], chars, ?_, isFirst.symm⟩
            rw [Char.toNat_inj.mp (same.trans lowByte)]
            rfl
        · next behind =>
            rcases induction found with ⟨before, after, rfl, length⟩
            rw [String.length_utf8EncodeChar] at behind length
            exact ⟨d :: before, after, rfl, by rw [byteLength_cons]; omega⟩
  · rintro ⟨before, after, rfl, rfl⟩
    have passed := length_utf8Bytes_ofList before
    rw [utf8Bytes_ofList] at passed
    rw [List.flatMap_append, List.getElem?_append_right (Nat.le_of_eq passed), passed,
      Nat.sub_self, List.flatMap_cons, single]
    rfl

end MemberStubs.Text
