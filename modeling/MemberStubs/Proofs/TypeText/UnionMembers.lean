import MemberStubs.Proofs.TypeText.Levels

/-! What the scan of a text makes of an arrow and of union marks that stand between steady texts. -/

namespace MemberStubs.TypeText

/-- An arrow behind a text without union marks is in front of all of them. -/
theorem isFunctionType_arrow {front : List Char} (steady : Steady front) (unsplit : Unsplit front)
    (behind : List Char) : isFunctionType (front ++ (" => ".toList ++ behind)) = true := by
  have arrow : (places (" => ".toList ++ behind)).find? (fun place =>
      place.isTopArrow || place.isUnionMark) = some ⟨'>', 0, true⟩ := rfl
  rw [isFunctionType, steady.places_append (by simp), List.find?_append, arrow]
  cases found : (places front).find? (fun place => place.isTopArrow || place.isUnionMark) with
  | none => rfl
  | some place =>
      have mark := unsplit place (List.mem_of_find?_eq_some found)
      have isArrow := List.find?_some found
      rw [mark, Bool.or_false, Place.isTopArrow, Bool.and_eq_true] at isArrow
      exact isArrow.2

/-! ## Runs -/

section

variable {test : α → Bool} {values : List α}

theorem runsBetween_of_forall (none : ∀ value ∈ values, test value = false) :
    runsBetween test values = [values] := by
  induction values with
  | nil => rfl
  | cons value values induction =>
      rcases List.forall_mem_cons.mp none with ⟨here, later⟩
      rw [runsBetween, here, induction later]
      rfl

theorem runsBetween_append_cons (none : ∀ value ∈ values, test value = false) {mark : α}
    (isMark : test mark = true) (later : List α) :
    runsBetween test (values ++ mark :: later) = values :: runsBetween test later := by
  induction values with
  | nil => rw [List.nil_append, runsBetween, if_pos isMark]
  | cons value values induction =>
      rcases List.forall_mem_cons.mp none with ⟨here, rest⟩
      rw [List.cons_append, runsBetween, here, induction rest]
      rfl

end

/-! ## Members -/

/-- A text that is one member of any union it stands in. -/
structure Undivided (chars : List Char) : Prop where
  steady : Steady chars
  unsplit : Unsplit chars
  notEmpty : chars ≠ []
  begins : ∀ c ∈ chars.head?, Text.isBlank c = false
  ends : ∀ c ∈ chars.getLast?, Text.isBlank c = false

theorem trimStart_of_begins {chars : List Char}
    (begins : ∀ c ∈ chars.head?, Text.isBlank c = false) : Text.trimStart chars = chars := by
  cases chars with
  | nil => rfl
  | cons c rest => simp [Text.trimStart, begins c rfl]

theorem trimStart_append {blanks : List Char} (blank : ∀ c ∈ blanks, Text.isBlank c = true)
    (rest : List Char) : Text.trimStart (blanks ++ rest) = Text.trimStart rest := by
  rw [Text.trimStart, List.dropWhile_append_of_pos blank]
  rfl

namespace Undivided

variable {chars : List Char}

theorem trim_eq (undivided : Undivided chars) {before after : List Char}
    (blanks : ∀ c ∈ before, Text.isBlank c = true) (blanks' : ∀ c ∈ after, Text.isBlank c = true) :
    Text.trim (before ++ (chars ++ after)) = chars := by
  have front : Text.trimStart (before ++ (chars ++ after)) = chars ++ after := by
    rw [trimStart_append blanks]
    refine trimStart_of_begins fun c head => undivided.begins c ?_
    rwa [List.head?_append_of_ne_nil _ undivided.notEmpty] at head
  have back : Text.trimStart (after.reverse ++ chars.reverse) = chars.reverse := by
    rw [trimStart_append (by simpa using blanks')]
    exact trimStart_of_begins fun c head => undivided.ends c (List.head?_reverse ▸ head)
  rw [Text.trim, front, List.reverse_append, back, List.reverse_reverse]

end Undivided

/-- Union marks cut a union into its members. In front of a later member there is a blank yet. -/
theorem map_runsBetween_intercalate {operands : List (List Char)} (notEmpty : operands ≠ [])
    (undivided : ∀ operand ∈ operands, Undivided operand) {lead : List Char}
    (blank : lead ∈ [[], [' ']]) :
    (runsBetween Place.isUnionMark (places (lead ++ " | ".toList.intercalate operands))).map
      (fun run => Text.trim (run.map Place.char)) = operands := by
  induction operands generalizing lead with
  | nil => exact absurd rfl notEmpty
  | cons operand operands induction =>
      rcases List.forall_mem_cons.mp undivided with ⟨here, later⟩
      have leads : ∀ lead ∈ [[], [' ']], Steady lead ∧ Unsplit lead ∧
          lead.all Text.isBlank = true := by
        decide
      rcases leads lead blank with ⟨steady, unsplit, allBlank⟩
      have blanks := List.all_eq_true.mp allBlank
      cases operands with
      | nil =>
          have whole := unsplit.append steady here.steady here.unsplit
          rw [List.intercalate_singleton, runsBetween_of_forall whole, List.map_singleton, places,
            chars_placesFrom]
          have trimmed : Text.trim (lead ++ (operand ++ [])) = operand :=
            here.trim_eq blanks (List.forall_mem_nil _)
          rw [List.append_nil] at trimmed
          rw [trimmed]
      | cons next operands =>
          have blankSteady : Steady [' '] ∧ Unsplit [' '] := by decide
          have front := steady.append (here.steady.append blankSteady.1)
          have whole := unsplit.append steady (here.steady.append blankSteady.1)
            (here.unsplit.append here.steady blankSteady.1 blankSteady.2)
          have split (tail : List Char) : lead ++ (operand ++ " | ".toList ++ tail) =
              (lead ++ (operand ++ [' '])) ++ '|' :: ([' '] ++ tail) := by
            simp
          have mark (tail : List Char) :
              places ('|' :: ([' '] ++ tail)) = ⟨'|', 0, false⟩ :: places ([' '] ++ tail) := rfl
          rw [List.intercalate_cons_cons, split, front.places_append (by simp), mark,
            runsBetween_append_cons whole rfl, List.map_cons, places, chars_placesFrom,
            here.trim_eq blanks (List.forall_mem_singleton.mpr rfl),
            induction (by simp) later (by simp)]

theorem unionMembers_intercalate {operands : List (List Char)} (notEmpty : operands ≠ [])
    (undivided : ∀ operand ∈ operands, Undivided operand) :
    unionMembers (" | ".toList.intercalate operands) = operands := by
  have members := map_runsBetween_intercalate notEmpty undivided (List.mem_cons_self ..)
  rw [List.nil_append] at members
  rw [unionMembers, members, List.filter_eq_self]
  exact fun operand member => decide_eq_true (undivided operand member).notEmpty

end MemberStubs.TypeText
