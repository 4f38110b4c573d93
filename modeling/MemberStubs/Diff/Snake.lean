namespace MemberStubs.Diff

/-! The middle of a shortest edit between two lists. An edit is a path through a grid: a step right
removes an element of the first list, a step down adds one of the second, and a diagonal step keeps
an element. Paths are explored from both corners at once, one more step aside at each depth. -/

def commonPrefixLength [DecidableEq α] : List α → List α → Nat
  | a :: first, b :: second => if a = b then commonPrefixLength first second + 1 else 0
  | _, _ => 0

def commonSuffixLength [DecidableEq α] (first second : List α) : Nat :=
  commonPrefixLength first.reverse second.reverse

/-- How far to the right the paths have come on each diagonal. A diagonal is numbered by how far
right of the main diagonal it lies. -/
abbrev Frontier := Array Nat

structure Frontiers where
  forward : Frontier := #[]
  backward : Frontier := #[]

/-- Diagonals on the right take the even slots, those on the left the odd ones. -/
def slot : Int → Nat
  | .ofNat diagonal => 2 * diagonal
  | .negSucc diagonal => 2 * diagonal + 1

namespace Frontier

/-- A diagonal that no path has come to counts as zero. -/
def farthest (frontier : Frontier) (diagonal : Int) : Nat :=
  frontier.getD (slot diagonal) 0

def record (frontier : Frontier) (diagonal : Int) (x : Nat) : Frontier :=
  let missing := Array.replicate (slot diagonal + 1 - frontier.size) 0
  (frontier ++ missing).setIfInBounds (slot diagonal) x

/-- The best place on a diagonal that one step from a neighbouring diagonal leads to. -/
def reach (frontier : Frontier) (depth : Nat) (diagonal : Int) : Nat :=
  let below := frontier.farthest (diagonal - 1)
  let above := frontier.farthest (diagonal + 1)
  if diagonal = -depth ∨ (diagonal ≠ depth ∧ below < above) then above else below + 1

end Frontier

/-- Where a run of kept elements begins, and how many there are. -/
structure Snake where
  x : Nat
  y : Int
  length : Nat

def snakeFrom [DecidableEq α] (first second : List α) (x : Nat) (y : Int) : Snake :=
  ⟨x, y, if 0 ≤ y then commonPrefixLength (first.drop x) (second.drop y.toNat) else 0⟩

/-- The diagonals within reach, the rightmost first. -/
def diagonals (depth : Nat) : List Int :=
  (List.range (depth + 1)).map fun index : Nat => (depth : Int) - 2 * index

example : diagonals 2 = [2, 0, -2] := by decide

/-- Follows the paths of one depth, up to the first one that meets a path from the other corner. -/
def explore [DecidableEq α] (first second : List α) (depth : Nat) (meets : Int → Nat → Bool)
    (frontier : Frontier) : List Int → Frontier × Option Snake
  | [] => (frontier, none)
  | diagonal :: later =>
      let x := frontier.reach depth diagonal
      let snake := snakeFrom first second x (x - diagonal)
      let next := frontier.record diagonal (x + snake.length)
      if meets diagonal (x + snake.length) then (next, some snake)
      else explore first second depth meets next later

/-- The place where the paths from both corners meet, from the given depth on. With an odd difference
of the lengths a path from the first corner notices it, otherwise one from the last. -/
def meetingFrom [DecidableEq α] (old new : List α) (frontiers : Frontiers) (depth : Nat) :
    Nat → Frontiers × Option (Nat × Nat)
  | 0 => (frontiers, none)
  | remaining + 1 =>
      let delta : Int := old.length - new.length
      let isOdd := delta % 2 = 1
      let meetsBackward := fun (diagonal : Int) (x : Nat) =>
        isOdd && (diagonal - delta).natAbs + 1 ≤ depth &&
          x + frontiers.backward.farthest (delta - diagonal) ≥ old.length
      let (forward, found) := explore old new depth meetsBackward frontiers.forward (diagonals depth)
      match found with
      | some snake => ({ frontiers with forward }, some (snake.x, snake.y.toNat))
      | none =>
          let meetsForward := fun (diagonal : Int) (x : Nat) =>
            !isOdd && (diagonal - delta).natAbs ≤ depth &&
              x + forward.farthest (delta - diagonal) ≥ old.length
          let (backward, found) :=
            explore old.reverse new.reverse depth meetsForward frontiers.backward (diagonals depth)
          match found with
          | some snake =>
              let x := old.length - (snake.x + snake.length)
              let y := (new.length : Int) - (snake.y + snake.length)
              (⟨forward, backward⟩, some (x, y.toNat))
          | none => meetingFrom old new ⟨forward, backward⟩ (depth + 1) remaining

/-- No edit takes more steps aside than there are elements. -/
def middle? [DecidableEq α] (frontiers : Frontiers) (old new : List α) :
    Frontiers × Option (Nat × Nat) :=
  let start := ⟨frontiers.forward.record 1 0, frontiers.backward.record 1 0⟩
  meetingFrom old new start 0 (old.length + new.length + 1)

end MemberStubs.Diff
