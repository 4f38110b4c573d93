import MemberStubs.Proofs.Source.Splice

/-! Insertions that move with the text they stand in. An insertion that is made before the others
takes those behind it along, and they come to the same text; where a line begins or ends decides the
layout on it, whatever is on other lines. -/

namespace MemberStubs

open SourceBuffer

/-! ## Layout on other lines -/

theorem takeWhile_line {line : List Char} (ends : '\n' ∈ line) (rest : List Char) :
    (line ++ rest).takeWhile (· ≠ '\n') = line.takeWhile (· ≠ '\n') := by
  induction line with
  | nil => cases ends
  | cons c line induction =>
      by_cases lineFeed : c = '\n'
      · simp [lineFeed]
      · have later : '\n' ∈ line := (List.mem_cons.mp ends).resolve_left (Ne.symm lineFeed)
        simpa [lineFeed] using induction later

namespace Layout

theorem indentOf_append {line : List Char} (begins : '\n' ∈ line) (front : List Char) :
    indentOf (front ++ line) = indentOf line := by
  rw [indentOf, indentOf, List.reverse_append,
    takeWhile_line (List.mem_reverse.mpr begins) front.reverse]

theorem isRestBlank_append {line : List Char} (ends : '\n' ∈ line) (rest : List Char) :
    isRestBlank (line ++ rest) = isRestBlank line := by
  rw [isRestBlank, isRestBlank, takeWhile_line ends]

end Layout

/-! ## Insertions that move -/

def Insertion.shift (length : Nat) (insertion : Insertion) : Insertion :=
  { insertion with position := insertion.position + .ofNat length }

def Insertion.movedBehind (used : Anchor) (growth : Nat) (insertion : Insertion) : Insertion :=
  if used.position < insertion.position then insertion.shift growth else insertion

theorem toNat_add_ofNat {position : UInt64} {length : Nat}
    (fits : position.toNat + length < UInt64.size) :
    (position + .ofNat length).toNat = position.toNat + length := by
  rw [UInt64.toNat_add, UInt64.toNat_ofNat_of_lt' (by omega), Nat.mod_eq_of_lt fits]

namespace Insertion

theorem toNat_position_shift {length : Nat} {insertion : Insertion}
    (fits : insertion.position.toNat + length < UInt64.size) :
    (insertion.shift length).position.toNat = insertion.position.toNat + length :=
  toNat_add_ofNat fits

theorem map_movedBehind_of_above {used : Anchor} {insertions : List Insertion}
    (above : ∀ insertion ∈ insertions, insertion.position < used.position) (growth : Nat) :
    insertions.map (movedBehind used growth) = insertions := by
  have stays : ∀ insertion ∈ insertions, movedBehind used growth insertion = insertion :=
    fun insertion member => if_neg (UInt64.lt_asymm (above insertion member))
  rw [List.map_congr_left stays, List.map_id']

theorem map_movedBehind_of_below {used : Anchor} {insertions : List Insertion}
    (below : ∀ insertion ∈ insertions, used.position < insertion.position) (growth : Nat) :
    insertions.map (movedBehind used growth) = insertions.map (shift growth) :=
  List.map_congr_left fun insertion member => if_pos (below insertion member)

/-- Moving along changes no order. -/
theorem movedBehind_lt {used : Anchor} {growth : Nat} {first second : Insertion}
    (before : first.position < second.position)
    (bound : used.position < second.position →
      second.position.toNat + growth < UInt64.size) :
    (first.movedBehind used growth).position < (second.movedBehind used growth).position := by
  by_cases moves : used.position < second.position
  · have fits := bound moves
    rw [movedBehind, movedBehind, if_pos moves]
    rw [UInt64.lt_iff_toNat_lt] at before ⊢
    rw [toNat_position_shift fits]
    split
    · rw [toNat_position_shift (by omega)]
      omega
    · omega
  · have stays : ¬used.position < first.position :=
      fun moved => moves (UInt64.lt_trans moved before)
    rw [movedBehind, movedBehind, if_neg moves, if_neg stays]
    exact before

end Insertion

namespace SourceBuffer

variable {passed : Nat} {rest : List Char} {insertions : List Insertion}

theorem Fits.shift {length : Nat} (fits : Fits passed rest insertions)
    (bound : ∀ insertion ∈ insertions, insertion.position.toNat + length < UInt64.size) :
    Fits (passed + length) rest (insertions.map (.shift length)) ∧
      renderFrom (passed + length) rest (insertions.map (.shift length)) =
        renderFrom passed rest insertions := by
  induction fits with
  | nil => exact ⟨.nil, rfl⟩
  | @cons passed before after insertion later place _ induction =>
      have here := toNat_add_ofNat (bound insertion (List.mem_cons_self ..))
      have moved := induction fun other member => bound other (List.mem_cons_of_mem _ member)
      have place' : passed + length + Text.byteLength before + 1 =
          (insertion.shift length).position.toNat := by
        rw [Insertion.shift, here]
        omega
      rw [← here] at moved
      refine ⟨.cons place' moved.1, ?_⟩
      rw [List.map_cons, renderFrom_cons place', renderFrom_cons place]
      exact congrArg (fun last => before ++ '\x7b' :: (insertion.block ++ last)) moved.2

theorem Fits.append {first second : List Char} {earlier later : List Insertion}
    (fits : Fits passed first earlier)
    (fits' : Fits (passed + Text.byteLength first) second later) :
    renderFrom passed (first ++ second) (earlier ++ later) =
      renderFrom passed first earlier ++
        renderFrom (passed + Text.byteLength first) second later := by
  induction fits with
  | nil => exact fits'.renderFrom_append _
  | @cons passed before after insertion earlier place _ induction =>
      have offset : passed + Text.byteLength (before ++ '\x7b' :: after) =
          insertion.position.toNat + Text.byteLength after := by
        rw [Text.byteLength_append, byteLength_cons_brace, ← place]
        omega
      rw [offset] at fits' ⊢
      rw [List.append_assoc, List.cons_append, List.cons_append, renderFrom_cons place,
        renderFrom_cons place, induction fits']
      simp

theorem Fits.prepend (front : List Char)
    (fits : Fits (passed + Text.byteLength front) rest insertions) :
    Fits passed (front ++ rest) insertions := by
  cases fits with
  | nil => exact .nil
  | @cons _ before after insertion later place fits =>
      rw [← List.append_assoc]
      refine .cons ?_ fits
      rw [Text.byteLength_append]
      omega

theorem Fits.position_le (fits : Fits passed rest insertions) {insertion : Insertion}
    (member : insertion ∈ insertions) :
    insertion.position.toNat ≤ passed + Text.byteLength rest := by
  induction fits with
  | nil => cases member
  | @cons passed before after first later place _ induction =>
      rw [Text.byteLength_append, byteLength_cons_brace]
      rcases List.mem_cons.mp member with rfl | member
      · omega
      · have := induction member
        omega

theorem Fits.byteLength_le (fits : Fits passed rest insertions) :
    Text.byteLength rest ≤ Text.byteLength (renderFrom passed rest insertions) := by
  induction fits with
  | nil => exact Nat.le_refl _
  | @cons passed before after insertion later place _ induction =>
      rw [renderFrom_cons place]
      simp only [Text.byteLength_append, Text.byteLength_cons]
      omega

/-- An insertion that is made before the others takes them along. -/
theorem Fits.exists_movedBehind {source : List Char} {insertion : Insertion}
    {earlier later : List Insertion} (fits : Fits 0 source (earlier ++ insertion :: later))
    (increasing : (earlier ++ insertion :: later).Pairwise (·.position < ·.position))
    (bound : Text.byteLength (renderFrom 0 source (earlier ++ insertion :: later)) <
      UInt64.size) :
    ∃ before after others, before ++ '\x7b' :: after = source ∧
      Text.byteLength before + 1 = insertion.position.toNat ∧
      Text.byteLength source + Text.byteLength insertion.block < UInt64.size ∧
      others = (earlier ++ later).map
        (.movedBehind ⟨insertion.position⟩ (Text.byteLength insertion.block)) ∧
      others.Pairwise (·.position < ·.position) ∧
      renderFrom 0 (before ++ '\x7b' :: (insertion.block ++ after)) others =
        renderFrom 0 source (earlier ++ insertion :: later) := by
  rcases fits.cut with ⟨before, after, rfl, place, earlierFits, laterFits, render⟩
  rcases List.pairwise_append.mp increasing with ⟨_, atOrBehind, across⟩
  have below := (List.pairwise_cons.mp atOrBehind).1
  have above : ∀ other ∈ earlier, other.position < insertion.position :=
    fun other member => across other member insertion (List.mem_cons_self ..)
  -- The text holds the source and the block, so a place in both together is no overflow.
  have grown : Text.byteLength (before ++ '\x7b' :: after) + Text.byteLength insertion.block <
      UInt64.size := by
    have front := earlierFits.byteLength_le
    have back := laterFits.byteLength_le
    rw [render] at bound
    simp only [Text.byteLength_append, byteLength_cons_brace] at bound ⊢
    omega
  have inside : ∀ other ∈ later,
      other.position.toNat + Text.byteLength insertion.block < UInt64.size := by
    intro other member
    have := laterFits.position_le member
    simp only [Text.byteLength_append, byteLength_cons_brace] at grown
    omega
  refine ⟨before, after, _, rfl, by omega, grown, rfl, ?_, ?_⟩
  · refine List.pairwise_map.mpr ((increasing.sublist
      ((List.sublist_cons_self insertion later).append_left earlier)).imp_of_mem ?_)
    intro first second _ member before
    refine Insertion.movedBehind_lt before fun behind => ?_
    rcases List.mem_append.mp member with member | member
    · exact absurd behind (UInt64.lt_asymm (above second member))
    · exact inside second member
  · rw [List.map_append, Insertion.map_movedBehind_of_above above,
      Insertion.map_movedBehind_of_below below]
    rcases laterFits.shift inside with ⟨movedFits, moved⟩
    have offset : 0 + Text.byteLength before +
        Text.byteLength ('\x7b' :: insertion.block) =
          insertion.position.toNat + Text.byteLength insertion.block := by
      rw [← place, byteLength_cons_brace]
      omega
    rw [← offset] at movedFits
    rw [← List.cons_append, earlierFits.append (movedFits.prepend _),
      movedFits.renderFrom_append, offset, moved, render, List.cons_append]

end SourceBuffer

end MemberStubs
