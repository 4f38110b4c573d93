import Mathlib.Data.List.Basic
import Mathlib.Data.Option.Basic
import MemberStubs.Stub.DefaultValue

/-! What a type with a default value is, and what the value has to do with it. -/

namespace MemberStubs

namespace TypeText

theorem mem_of_mem_runsBetween {test : α → Bool} {values run : List α}
    (member : run ∈ runsBetween test values) {value : α} (inside : value ∈ run) :
    value ∈ values := by
  induction values generalizing run with
  | nil =>
      cases List.mem_singleton.mp member
      cases inside
  | cons first values induction =>
      rw [runsBetween] at member
      split at member
      · rcases List.mem_cons.mp member with rfl | member
        · cases inside
        · exact List.mem_cons_of_mem _ (induction member inside)
      · split at member
        · rcases List.mem_singleton.mp member with rfl
          exact List.mem_singleton.mp inside ▸ List.mem_cons_self ..
        · next other runs split =>
            rw [split] at induction
            rcases List.mem_cons.mp member with rfl | member
            · rcases List.mem_cons.mp inside with rfl | inside
              · exact List.mem_cons_self ..
              · exact List.mem_cons_of_mem _ (induction (List.mem_cons_self ..) inside)
            · exact List.mem_cons_of_mem _ (induction (List.mem_cons_of_mem _ member) inside)

theorem mem_of_mem_trim {chars : List Char} {c : Char} (member : c ∈ Text.trim chars) :
    c ∈ chars := by
  rw [Text.trim, List.mem_reverse] at member
  have inside := (List.dropWhile_sublist _).subset member
  rw [List.mem_reverse] at inside
  exact (List.dropWhile_sublist _).subset inside

theorem mem_of_mem_unionMembers {chars operand : List Char} (member : operand ∈ unionMembers chars)
    {c : Char} (inside : c ∈ operand) : c ∈ chars := by
  rcases List.mem_map.mp (List.mem_filter.mp member).1 with ⟨run, held, rfl⟩
  rcases List.mem_map.mp (mem_of_mem_trim inside) with ⟨place, placed, rfl⟩
  rw [← chars_placesFrom 0 none chars]
  exact List.mem_map_of_mem (mem_of_mem_runsBetween held placed)

end TypeText

namespace DefaultValue

theorem ofOperand?_cases {type : List Char} {value : String}
    (known : ofOperand? type = some value) :
    ofKeyword? type = some value ∨ isArray type = true ∧ value = "[]" ∨
      isLiteral type = true ∧ value = String.ofList type := by
  rcases (Option.orElse_eq_some _ _ _).mp known with keyword | ⟨_, known⟩
  · exact .inl keyword
  · split at known
    · next array =>
        cases known
        exact .inr (.inl ⟨array, rfl⟩)
    · split at known
      · next literal =>
          cases known
          exact .inr (.inr ⟨literal, rfl⟩)
      · cases known

end DefaultValue

/-- A text with a default value is a union with a member that tells it, a union that has the default
of its first member, or no union. -/
theorem defaultValue?_cases {type value : String} (known : defaultValue? type = some value) :
    TypeText.isFunctionType type.toList = false ∧
      ((("undefined".toList ∈ TypeText.unionMembers type.toList ∨
            "void".toList ∈ TypeText.unionMembers type.toList) ∧ value = "undefined") ∨
        ("null".toList ∈ TypeText.unionMembers type.toList ∧ value = "null") ∨
        (∃ first second others,
          TypeText.unionMembers type.toList = first :: second :: others ∧
            DefaultValue.ofOperand? first = some value) ∨
        (TypeText.unionMembers type.toList).length ≤ 1 ∧
          DefaultValue.ofOperand? (Text.trim type.toList) = some value) := by
  rw [defaultValue?] at known
  split at known
  · cases known
  · next notFunction =>
      refine ⟨by simpa using notFunction, ?_⟩
      split at known
      · next first second others members =>
          rw [members]
          dsimp only at known
          split at known
          · next isMember =>
              cases known
              exact .inl ⟨by simpa using isMember, rfl⟩
          · split at known
            · next isMember =>
                cases known
                exact .inr (.inl ⟨by simpa using isMember, rfl⟩)
            · split at known
              · cases known
              · exact .inr (.inr (.inl ⟨first, second, others, rfl, known⟩))
      · next single =>
          refine .inr (.inr (.inr ⟨?_, known⟩))
          rcases split : TypeText.unionMembers type.toList with _ | ⟨first, _ | ⟨second, others⟩⟩
          · simp
          · simp
          · exact absurd split (single first second others)

end MemberStubs
