import Mathlib.Data.List.Basic
import MemberStubs.TypeText.Operators

/-! Depths in a text that is put together from others. A part that closes only what it opens, and
all of that, leaves the depth behind it as it was. -/

namespace MemberStubs.TypeText

/-- The depth behind a text, given the depth and the character before it. -/
def depthBehind (depth : Int) (previous : Option Char) : List Char → Int
  | [] => depth
  | c :: rest =>
      depthBehind (depthAfter ⟨c, depth, c = '>' && previous = some '='⟩) (some c) rest

/-- A text that opens and closes brackets in pairs. It makes no arrow together with the text before
it or behind it. -/
structure Steady (chars : List Char) : Prop where
  above : ∀ place ∈ places chars, 0 ≤ place.depth
  returns : depthBehind 0 none chars = 0
  noAngle : chars.head? ≠ some '>'
  noEquals : chars.getLast? ≠ some '='

instance (chars : List Char) : Decidable (Steady chars) :=
  decidable_of_iff ((∀ place ∈ places chars, 0 ≤ place.depth) ∧ depthBehind 0 none chars = 0 ∧
      chars.head? ≠ some '>' ∧ chars.getLast? ≠ some '=')
    ⟨fun ⟨above, returns, noAngle, noEquals⟩ => ⟨above, returns, noAngle, noEquals⟩,
      fun ⟨above, returns, noAngle, noEquals⟩ => ⟨above, returns, noAngle, noEquals⟩⟩

/-- A text without a union mark at its top level. -/
def Unsplit (chars : List Char) : Prop :=
  ∀ place ∈ places chars, place.isUnionMark = false

instance (chars : List Char) : Decidable (Unsplit chars) :=
  inferInstanceAs (Decidable (∀ place ∈ places chars, place.isUnionMark = false))

example : Steady "Map<() => [A], B | C>".toList ∧ Unsplit "Map<() => [A], B | C>".toList := by decide

example : ¬ Steady "Map<A, \x22(\x22>".toList := by decide

/-! ## Places -/

def Place.raise (levels : Int) (place : Place) : Place :=
  { place with depth := place.depth + levels }

theorem depthAfter_raise (levels : Int) (place : Place) :
    depthAfter (place.raise levels) = depthAfter place + levels := by
  simp only [depthAfter, Place.raise]
  grind

section

variable {chars : List Char}

theorem placesFrom_add (depth levels : Int) (previous : Option Char) (chars : List Char) :
    placesFrom (depth + levels) previous chars =
      (placesFrom depth previous chars).map (Place.raise levels) := by
  induction chars generalizing depth previous with
  | nil => rfl
  | cons c rest induction =>
      rw [placesFrom, placesFrom, List.map_cons, ← induction, ← depthAfter_raise]
      rfl

theorem depthBehind_add (depth levels : Int) (previous : Option Char) (chars : List Char) :
    depthBehind (depth + levels) previous chars = depthBehind depth previous chars + levels := by
  induction chars generalizing depth previous with
  | nil => rfl
  | cons c rest induction =>
      rw [depthBehind, depthBehind, ← induction, ← depthAfter_raise]
      rfl

/-- Only an angle looks at the character before it. -/
theorem placesFrom_eq_of_noAngle (noAngle : chars.head? ≠ some '>') (depth : Int)
    (previous : Option Char) : placesFrom depth previous chars = placesFrom depth none chars := by
  cases chars with
  | nil => rfl
  | cons c rest =>
      have other : c ≠ '>' := fun same => noAngle (same ▸ rfl)
      simp [placesFrom, other]

theorem depthBehind_eq_of_noAngle (noAngle : chars.head? ≠ some '>') (depth : Int)
    (previous : Option Char) : depthBehind depth previous chars = depthBehind depth none chars := by
  cases chars with
  | nil => rfl
  | cons c rest =>
      have other : c ≠ '>' := fun same => noAngle (same ▸ rfl)
      simp [depthBehind, other]

theorem placesFrom_append (depth : Int) (previous : Option Char) (first second : List Char) :
    placesFrom depth previous (first ++ second) =
      placesFrom depth previous first ++
        placesFrom (depthBehind depth previous first) (first.getLast?.or previous) second := by
  induction first generalizing depth previous with
  | nil => rfl
  | cons c rest induction =>
      rw [List.cons_append, placesFrom, placesFrom, induction, List.cons_append, List.getLast?_cons]
      cases rest.getLast? <;> rfl

theorem depthBehind_append (depth : Int) (previous : Option Char) (first second : List Char) :
    depthBehind depth previous (first ++ second) =
      depthBehind (depthBehind depth previous first) (first.getLast?.or previous) second := by
  induction first generalizing depth previous with
  | nil => rfl
  | cons c rest induction =>
      rw [List.cons_append, depthBehind, depthBehind, induction, List.getLast?_cons]
      cases rest.getLast? <;> rfl

end

/-! ## Steady texts -/

section

variable {first second inside : List Char}

namespace Steady

theorem placesFrom_eq (steady : Steady first) (depth : Int) (previous : Option Char) :
    placesFrom depth previous first = (places first).map (Place.raise depth) := by
  rw [placesFrom_eq_of_noAngle steady.noAngle, places, ← placesFrom_add, Int.zero_add]

theorem depthBehind_eq (steady : Steady first) (depth : Int) (previous : Option Char) :
    depthBehind depth previous first = depth := by
  rw [depthBehind_eq_of_noAngle steady.noAngle, ← Int.zero_add depth, depthBehind_add,
    steady.returns]

theorem places_append (steady : Steady first) (noAngle : second.head? ≠ some '>') :
    places (first ++ second) = places first ++ places second := by
  rw [places, placesFrom_append, steady.depthBehind_eq, placesFrom_eq_of_noAngle noAngle]
  rfl

theorem nil : Steady [] := by decide

theorem append (steady : Steady first) (steady' : Steady second) : Steady (first ++ second) where
  above := by
    rw [steady.places_append steady'.noAngle]
    exact List.forall_mem_append.mpr ⟨steady.above, steady'.above⟩
  returns := by
    rw [depthBehind_append, steady.depthBehind_eq, steady'.depthBehind_eq]
  noAngle := by
    cases first with
    | nil => exact steady'.noAngle
    | cons c rest => exact steady.noAngle
  noEquals := by
    rw [List.getLast?_append]
    cases last : second.getLast? with
    | none => exact steady.noEquals
    | some c => exact fun same => steady'.noEquals (last.trans same)

end Steady

theorem Unsplit.append (unsplit : Unsplit first) (steady : Steady first) (steady' : Steady second)
    (unsplit' : Unsplit second) : Unsplit (first ++ second) := by
  rw [Unsplit, steady.places_append steady'.noAngle]
  exact List.forall_mem_append.mpr ⟨unsplit, unsplit'⟩

/-! ### Brackets -/

def bracketPairs : List (Char × Char) :=
  [('(', ')'), ('<', '>'), ('[', ']'), ('\x7b', '\x7d')]

/-- What the scan of a text does at a pair of brackets. -/
structure IsPair (opening closing : Char) : Prop where
  opens : depthAfter ⟨opening, 0, false⟩ = 1
  closes : depthAfter ⟨closing, 1, false⟩ = 0
  openingOther : opening ≠ '=' ∧ opening ≠ '>' ∧ opening ≠ '|'
  closingOther : closing ≠ '='

theorem isPair_of_mem {opening closing : Char} (pair : (opening, closing) ∈ bracketPairs) :
    IsPair opening closing := by
  have all : ∀ pair ∈ bracketPairs, (depthAfter ⟨pair.1, 0, false⟩ = 1 ∧
      depthAfter ⟨pair.2, 1, false⟩ = 0) ∧ (pair.1 ≠ '=' ∧ pair.1 ≠ '>' ∧ pair.1 ≠ '|') ∧
        pair.2 ≠ '=' := by
    decide
  rcases all _ pair with ⟨⟨opens, closes⟩, openingOther, closingOther⟩
  exact ⟨opens, closes, openingOther, closingOther⟩

namespace IsPair

variable {opening closing : Char}

theorem noEquals (pair : IsPair opening closing) (steady : Steady inside) :
    inside.getLast?.getD opening ≠ '=' := by
  cases last : inside.getLast? with
  | none => exact pair.openingOther.1
  | some c => exact fun same => steady.noEquals (last.trans (congrArg some same))

/-- Inside brackets everything is one level deeper. -/
theorem places_enclosed (pair : IsPair opening closing) (steady : Steady inside) :
    places (opening :: (inside ++ [closing])) =
      ⟨opening, 0, false⟩ :: ((places inside).map (Place.raise 1) ++ [⟨closing, 1, false⟩]) := by
  rw [places, placesFrom, placesFrom_append]
  simp [pair.openingOther.2.1, pair.opens, steady.placesFrom_eq, steady.depthBehind_eq,
    pair.noEquals steady, placesFrom]

theorem steady (pair : IsPair opening closing) (steady : Steady inside) :
    Steady (opening :: (inside ++ [closing])) where
  above := by
    rw [pair.places_enclosed steady, List.forall_mem_cons, List.forall_mem_append,
      List.forall_mem_map, List.forall_mem_singleton]
    refine ⟨Int.le_refl 0, fun place member => ?_, Int.zero_le_ofNat 1⟩
    exact Int.le_trans (steady.above place member) (Int.le_add_of_nonneg_right (by decide))
  returns := by
    rw [depthBehind, depthBehind_append]
    simp [pair.openingOther.2.1, pair.opens, steady.depthBehind_eq, pair.noEquals steady,
      depthBehind, pair.closes]
  noAngle := by simp [pair.openingOther.2.1]
  noEquals := by
    rw [← List.cons_append, List.getLast?_append]
    exact fun same => pair.closingOther (Option.some.inj same)

theorem unsplit (pair : IsPair opening closing) (steady : Steady inside) :
    Unsplit (opening :: (inside ++ [closing])) := by
  have deeper {place : Place} (above : 0 < place.depth) : place.isUnionMark = false := by
    have inside : place.depth ≠ 0 := by omega
    simp [Place.isUnionMark, Place.isTop, inside]
  rw [Unsplit, pair.places_enclosed steady, List.forall_mem_cons, List.forall_mem_append,
    List.forall_mem_map, List.forall_mem_singleton]
  refine ⟨?_, fun place member => deeper ?_, deeper Int.one_pos⟩
  · simp [Place.isUnionMark, pair.openingOther.2.2]
  · exact Int.lt_add_one_of_le (steady.above place member)

end IsPair

end

/-! ### Texts without marks -/

/-- A character that is no bracket, no union mark and no part of an arrow. -/
def isInert (c : Char) : Bool :=
  !"([\x7b<)]\x7d>=|".toList.contains c

theorem isInert_of {test : Char → Bool} {c : Char} (holds : test c = true)
    (none : "([\x7b<)]\x7d>=|".toList.any test = false) : isInert c = true := by
  rw [isInert, Bool.not_eq_true', ← Bool.not_eq_true, List.contains_iff_mem]
  exact fun member => List.any_eq_false.mp none c member holds

section

variable {chars : List Char}

theorem depthAfter_of_inert {c : Char} (inert : isInert c = true) (depth : Int) :
    depthAfter ⟨c, depth, false⟩ = depth := by
  simp only [isInert, Bool.not_eq_true', List.contains_eq_mem, decide_eq_false_iff_not] at inert
  simp only [depthAfter]
  grind

theorem ne_of_isInert {c mark : Char} (inert : isInert c = true) (isMark : isInert mark = false) :
    c ≠ mark := by
  rintro rfl
  rw [inert] at isMark
  cases isMark

theorem placesFrom_of_inert (inert : ∀ c ∈ chars, isInert c = true) (depth : Int)
    (previous : Option Char) : placesFrom depth previous chars = chars.map (⟨·, depth, false⟩) := by
  induction chars generalizing previous with
  | nil => rfl
  | cons c rest induction =>
      rcases List.forall_mem_cons.mp inert with ⟨here, later⟩
      have other : c ≠ '>' := ne_of_isInert here (by decide)
      rw [placesFrom]
      simp [other, depthAfter_of_inert here, induction later]

theorem depthBehind_of_inert (inert : ∀ c ∈ chars, isInert c = true) (depth : Int)
    (previous : Option Char) : depthBehind depth previous chars = depth := by
  induction chars generalizing previous with
  | nil => rfl
  | cons c rest induction =>
      rcases List.forall_mem_cons.mp inert with ⟨here, later⟩
      have other : c ≠ '>' := ne_of_isInert here (by decide)
      rw [depthBehind]
      simp [other, depthAfter_of_inert here, induction later]

theorem Steady.of_inert (inert : ∀ c ∈ chars, isInert c = true) : Steady chars where
  above := by
    rw [places, placesFrom_of_inert inert, List.forall_mem_map]
    exact fun _ _ => Int.le_refl 0
  returns := depthBehind_of_inert inert 0 none
  noAngle := fun head => ne_of_isInert (inert _ (List.mem_of_mem_head? head)) (by decide) rfl
  noEquals := fun last => ne_of_isInert (inert _ (List.mem_of_mem_getLast? last)) (by decide) rfl

theorem Unsplit.of_inert (inert : ∀ c ∈ chars, isInert c = true) : Unsplit chars := by
  rw [Unsplit, places, placesFrom_of_inert inert, List.forall_mem_map]
  intro c member
  have other : c ≠ '|' := ne_of_isInert (inert c member) (by decide)
  simp [Place.isUnionMark, other]

end

end MemberStubs.TypeText
