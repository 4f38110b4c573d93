namespace MemberStubs.Text

/-! Offsets count UTF-8 bytes. A text can be cut only between characters, so a cut inside a
character or behind the end does not exist. -/

def byteLength : List Char → Nat
  | [] => 0
  | c :: chars => c.utf8Size + byteLength chars

@[simp] theorem byteLength_nil : byteLength [] = 0 := rfl

@[simp] theorem byteLength_cons (c : Char) (chars : List Char) :
    byteLength (c :: chars) = c.utf8Size + byteLength chars :=
  rfl

@[simp] theorem byteLength_append (first second : List Char) :
    byteLength (first ++ second) = byteLength first + byteLength second := by
  induction first with
  | nil => simp
  | cons c chars induction => simp [induction, Nat.add_assoc]

def splitAtByte? : Nat → List Char → Option (List Char × List Char)
  | 0, chars => some ([], chars)
  | _ + 1, [] => none
  | offset + 1, c :: rest =>
      if c.utf8Size ≤ offset + 1 then
        (splitAtByte? (offset + 1 - c.utf8Size) rest).map fun (before, after) => (c :: before, after)
      else none

example : splitAtByte? 3 "aéb".toList = some ("aé".toList, ['b']) := by decide

example : splitAtByte? 2 "aéb".toList = none := by decide

theorem splitAtByte?_eq_some_iff {offset : Nat} {chars before after : List Char} :
    splitAtByte? offset chars = some (before, after) ↔
      before ++ after = chars ∧ byteLength before = offset := by
  fun_induction splitAtByte? offset chars generalizing before after with
  | case1 chars =>
      constructor
      · intro same
        cases same
        simp
      · rintro ⟨rfl, empty⟩
        cases before with
        | nil => rfl
        | cons c before => simp [Nat.ne_of_gt c.utf8Size_pos] at empty
  | case2 offset =>
      constructor
      · intro impossible
        cases impossible
      · rintro ⟨joined, length⟩
        cases before with
        | nil => simp at length
        | cons c before => simp at joined
  | case3 offset c rest fits induction =>
      constructor
      · intro split
        simp only [Option.map_eq_some_iff, Prod.mk.injEq, Prod.exists] at split
        obtain ⟨front, back, found, rfl, rfl⟩ := split
        obtain ⟨joined, length⟩ := induction.1 found
        simp [joined, length]
        omega
      · rintro ⟨joined, length⟩
        cases before with
        | nil => simp at length
        | cons d before =>
            simp only [List.cons_append, List.cons.injEq] at joined
            obtain ⟨rfl, joined⟩ := joined
            simp only [byteLength_cons] at length
            have found := induction.2 ⟨joined, by omega⟩
            simp [found]
  | case4 offset c rest misses =>
      constructor
      · intro impossible
        cases impossible
      · rintro ⟨joined, length⟩
        cases before with
        | nil => simp at length
        | cons d before =>
            simp only [List.cons_append, List.cons.injEq] at joined
            obtain ⟨rfl, joined⟩ := joined
            simp only [byteLength_cons] at length
            omega

end MemberStubs.Text
