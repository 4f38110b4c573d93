import MemberStubs.Proofs.Substitution.Spelling
import MemberStubs.Proofs.TypeText.Scope

/-! All bindings of a substitution act at once. The text alone says where names are replaced, so what
has been put in is not looked at, and names that are exchanged for new ones can be exchanged back. -/

namespace MemberStubs

open TypeText

namespace TypeText.Segment

mutual
def names : Segment → List (List Char)
  | .verbatim _ => []
  | .occurrence name => [name]
  | .hole scope _ => namesOf scope

/-- The names that occur in a scope and the scopes inside of it. -/
def namesOf : List Segment → List (List Char)
  | [] => []
  | segment :: later => segment.names ++ namesOf later
end

end TypeText.Segment

namespace Substitution

open Segment

/-- What stands for a name that occurs in front of a text. Only an opening bracket behind it asks
for parentheses. -/
def written (substitution : Substitution) (name behind : List Char) : List Char :=
  match substitution.lookup? (String.ofList name) with
  | none => name
  | some replacement =>
      if Text.nextVisible? behind = some '[' ∧ needsParentheses replacement.toList = true then
        '(' :: replacement.toList ++ [')']
      else replacement.toList

mutual
def writtenSegment (substitution : Substitution) (behind : List Char) : Segment → List Char
  | .verbatim chars => chars
  | .occurrence name => substitution.written name behind
  | .hole scope isClosed =>
      holeStart ++ substitution.writtenScope scope ++ holeEnd isClosed

/-- A scope with every name in it replaced. -/
def writtenScope (substitution : Substitution) : List Segment → List Char
  | [] => []
  | segment :: later =>
      substitution.writtenSegment (sourceOf later) segment ++ substitution.writtenScope later
end

mutual
theorem flatMap_pieces (substitution : Substitution) (behind : List Char) :
    ∀ segment : Segment, (segment.pieces behind).flatMap substitution.pieceText =
      substitution.writtenSegment behind segment
  | .verbatim chars => by simp [Segment.pieces, pieceText, writtenSegment]
  | .occurrence name => by
      rw [Segment.pieces, writtenSegment, written, List.flatMap_singleton, pieceText]
      cases substitution.lookup? (String.ofList name) with
      | none => rfl
      | some replacement => simp [replacementText]
  | .hole scope isClosed => by
      have inside := flatMap_piecesOf substitution scope
      cases isClosed <;>
        simp [Segment.pieces, writtenSegment, pieceText, inside, holeEnd]

theorem flatMap_piecesOf (substitution : Substitution) :
    ∀ scope : List Segment, (piecesOf scope).flatMap substitution.pieceText =
      substitution.writtenScope scope
  | [] => rfl
  | segment :: later => by
      rw [piecesOf, List.flatMap_append, flatMap_pieces substitution _ segment,
        flatMap_piecesOf substitution later, writtenScope]
end

mutual
theorem mem_pieces_iff {name behind : List Char} : ∀ segment : Segment,
    (∃ beforeBracket, .occurrence name beforeBracket ∈ segment.pieces behind) ↔
      name ∈ segment.names
  | .verbatim chars => by simp [Segment.pieces, Segment.names]
  | .occurrence other => by simp [Segment.pieces, Segment.names]
  | .hole scope isClosed => by
      have inside := @mem_piecesOf_iff name scope
      cases isClosed <;> simpa [Segment.pieces, Segment.names] using inside

theorem mem_piecesOf_iff {name : List Char} : ∀ {scope : List Segment},
    (∃ beforeBracket, .occurrence name beforeBracket ∈ piecesOf scope) ↔ name ∈ namesOf scope
  | [] => by simp [piecesOf, namesOf]
  | segment :: later => by
      have here := @mem_pieces_iff name (sourceOf later) segment
      have behind := @mem_piecesOf_iff name later
      simp [piecesOf, namesOf, ← here, ← behind, exists_or]
end

/-! ## Names for themselves, and names taken back -/

/-- A substitution that gives every name back its old one. -/
def inverse (substitution : Substitution) : Substitution :=
  ⟨substitution.bindings.map Prod.swap⟩

theorem mem_of_lookup?_inverse {substitution : Substitution} {name other : String}
    (bound : substitution.inverse.lookup? other = some name) :
    (name, other) ∈ substitution.bindings := by
  have member := mem_of_lookup? bound
  rw [inverse, List.mem_map] at member
  rcases member with ⟨binding, member, swapped⟩
  rwa [← Prod.swap_swap binding, swapped] at member

theorem apply_of_same {substitution : Substitution}
    (same : ∀ binding ∈ substitution.bindings, binding.1 = binding.2) (text : String) :
    substitution.apply text = text := by
  apply String.toList_injective
  rw [toList_apply]
  refine Eq.trans (List.flatMap_congr fun piece member => ?_) (chars_piecesFrom {} text.toList)
  cases piece with
  | verbatim chars => rfl
  | occurrence name beforeBracket =>
      cases bound : substitution.lookup? (String.ofList name) with
      | none => exact pieceText_of_unbound bound _
      | some other =>
          have unchanged : String.ofList name = other := same _ (mem_of_lookup? bound)
          subst unchanged
          have isName : IsName (String.ofList name).toList := by
            rw [String.toList_ofList]
            exact isName_of_mem_piecesFrom member
          rw [pieceText_of_name bound isName, String.toList_ofList]
          rfl

theorem exists_lookup?_of_mem {substitution : Substitution} {name replacement : String}
    (member : (name, replacement) ∈ substitution.bindings) :
    ∃ first, substitution.lookup? name = some first := by
  cases bound : substitution.lookup? name with
  | none =>
      have absent := List.lookup_eq_none_iff.mp bound _ member
      simp at absent
  | some first => exact ⟨first, rfl⟩

/-- Different names for different parameters can be taken back if the text had none of them. -/
theorem apply_inverse_apply {substitution : Substitution} (respells : substitution.Respells)
    (injective : ∀ first ∈ substitution.bindings, ∀ second ∈ substitution.bindings,
      first.2 = second.2 → first.1 = second.1) {text : String}
    (fresh : ∀ binding ∈ substitution.bindings, ∀ beforeBracket,
      .occurrence binding.2.toList beforeBracket ∉ TypeText.pieces text) :
    substitution.inverse.apply (substitution.apply text) = text := by
  refine respells.apply_apply_eq_self fun name beforeBracket member => ?_
  rw [spelling]
  cases bound : substitution.lookup? (String.ofList name) with
  | none =>
      refine pieceText_of_unbound ?_ _
      cases back : substitution.inverse.lookup? (String.ofList name) with
      | none => exact back
      | some other =>
          have absent := fresh _ (mem_of_lookup?_inverse back) beforeBracket
          rw [String.toList_ofList] at absent
          exact absurd member absent
  | some other =>
      have given := mem_of_lookup? bound
      have returned : (other, String.ofList name) ∈ substitution.inverse.bindings :=
        List.mem_map_of_mem (f := Prod.swap) given
      rcases exists_lookup?_of_mem returned with ⟨origin, back⟩
      have same : origin = String.ofList name :=
        injective _ (mem_of_lookup?_inverse back) _ given rfl
      subst same
      have isName : IsName (String.ofList name).toList := by
        rw [String.toList_ofList]
        exact isName_of_mem_piecesFrom member
      have taken : substitution.inverse.lookup? (String.ofList other.toList) =
          some (String.ofList name) := by rwa [String.ofList_toList]
      rw [Option.map_some, Option.getD_some, pieceText_of_name taken isName, String.toList_ofList]

/-- Two names that are exchanged are not replaced again by each other. -/
theorem swap_apply_swap_apply {first second : String} (isFirst : IsName first.toList)
    (isSecond : IsName second.toList) (text : String) :
    apply ⟨[(first, second), (second, first)]⟩ (apply ⟨[(first, second), (second, first)]⟩ text) =
      text := by
  have respells : Respells ⟨[(first, second), (second, first)]⟩ := by
    intro binding member
    simp only [List.mem_cons, List.not_mem_nil, or_false] at member
    rcases member with rfl | rfl
    · exact isSecond
    · exact isFirst
  have swapped : ∀ name, lookup? ⟨[(first, second), (second, first)]⟩ name =
      if name = first then some second else if name = second then some first else none := by
    intro name
    simp only [lookup?, List.lookup_cons, List.lookup_nil]
    by_cases atFirst : name = first
    · simp [atFirst]
    · by_cases atSecond : name = second
      · subst atSecond
        simp [atFirst, beq_eq_false_iff_ne.mpr atFirst]
      · simp [atFirst, atSecond, beq_eq_false_iff_ne.mpr atFirst,
          beq_eq_false_iff_ne.mpr atSecond]
  refine respells.apply_apply_eq_self fun name beforeBracket _ => ?_
  rw [respells.pieceText_eq]
  show spelling _ (spelling _ name) = name
  by_cases atFirst : String.ofList name = first
  · subst atFirst
    by_cases same : second = String.ofList name
    · subst same
      simp [spelling, swapped]
    · simp [spelling, swapped, same]
  · by_cases atSecond : String.ofList name = second
    · subst atSecond
      simp [spelling, swapped, atFirst]
    · simp [spelling, swapped, atFirst, atSecond]

/-! ## The scope of a text -/

/-- A text taken apart in a way that serves every substitution. -/
structure TakenApart (text : String) (scope : List Segment) : Prop where
  source : sourceOf scope = text.toList
  areNames : ∀ name ∈ namesOf scope, IsName name
  applied : ∀ substitution : Substitution,
    (substitution.apply text).toList = substitution.writtenScope scope
  kept : ∀ substitution : Substitution,
    (∀ binding ∈ substitution.bindings, binding.1 = binding.2) → substitution.apply text = text
  exchanged : ∀ first second : String, IsName first.toList → IsName second.toList →
    apply ⟨[(first, second), (second, first)]⟩
      (apply ⟨[(first, second), (second, first)]⟩ text) = text
  takenBack : ∀ substitution : Substitution, substitution.Respells →
    (∀ first ∈ substitution.bindings, ∀ second ∈ substitution.bindings,
      first.2 = second.2 → first.1 = second.1) →
    (∀ binding ∈ substitution.bindings, binding.2.toList ∉ namesOf scope) →
      substitution.inverse.apply (substitution.apply text) = text

theorem apply_takenApart (text : String) : ∃ scope, TakenApart text scope := by
  rcases exists_scope {} text.toList with ⟨scope, source, pieces⟩
  have occurs : ∀ {name beforeBracket}, .occurrence name beforeBracket ∈ TypeText.pieces text →
      name ∈ namesOf scope := by
    intro name beforeBracket member
    rw [TypeText.pieces, ← pieces] at member
    exact mem_piecesOf_iff.mp ⟨beforeBracket, member⟩
  refine ⟨scope, source, fun name member => ?_, fun substitution => ?_,
    fun substitution same => apply_of_same same text,
    fun first second isFirst isSecond => swap_apply_swap_apply isFirst isSecond text,
    fun substitution respells injective fresh => apply_inverse_apply respells injective
      fun binding member _ found => fresh binding member (occurs found)⟩
  · rcases mem_piecesOf_iff.mpr member with ⟨beforeBracket, found⟩
    rw [pieces] at found
    exact isName_of_mem_piecesFrom found
  · rw [toList_apply, TypeText.pieces, ← pieces, flatMap_piecesOf]

end Substitution

end MemberStubs
