import MemberStubs.Diff.Script

namespace MemberStubs.Diff

/-! Hunks: changes with some context around them. Changes whose contexts would meet share a hunk. -/

/-- What stands between two kept runs. -/
structure Change (α : Type) where
  oldStart : Nat
  newStart : Nat
  removed : List α := []
  added : List α := []
  deriving DecidableEq, Repr

namespace Change

def oldStop (change : Change α) : Nat :=
  change.oldStart + change.removed.length

def newStop (change : Change α) : Nat :=
  change.newStart + change.added.length

end Change

/-- The change at hand, `pending`, has begun and may grow. -/
def changesFrom (oldAt newAt : Nat) (pending : Option (Change α)) : Script α → List (Change α)
  | [] => pending.toList
  | ⟨.kept, values⟩ :: later =>
      pending.toList ++ changesFrom (oldAt + values.length) (newAt + values.length) none later
  | ⟨.removed, values⟩ :: later =>
      let change := pending.getD { oldStart := oldAt, newStart := newAt }
      let grown := { change with removed := change.removed ++ values }
      changesFrom (oldAt + values.length) newAt (some grown) later
  | ⟨.added, values⟩ :: later =>
      let change := pending.getD { oldStart := oldAt, newStart := newAt }
      let grown := { change with added := change.added ++ values }
      changesFrom oldAt (newAt + values.length) (some grown) later

def changes (script : Script α) : List (Change α) :=
  changesFrom 0 0 none script

/-- How many elements of context a hunk has on either side, if there are so many. -/
def contextSize : Nat := 3

structure Hunk (α : Type) where
  oldStart : Nat
  oldCount : Nat
  newStart : Nat
  newCount : Nat
  body : Script α
  deriving DecidableEq, Repr

/-- The two lists that are compared. -/
structure Comparison (α : Type) where
  old : List α
  new : List α

namespace Comparison

def newSlice (comparison : Comparison α) (start stop : Nat) : List α :=
  (comparison.new.drop start).take (stop - start)

/-- The size of the context behind a change. -/
def contextBehind (comparison : Comparison α) (change : Change α) : Nat :=
  min contextSize <|
    min (comparison.old.length - change.oldStop) (comparison.new.length - change.newStop)

def joins (comparison : Comparison α) (change next : Change α) : Bool :=
  min next.oldStart (comparison.old.length - 1) - contextSize <
    change.oldStop + comparison.contextBehind change

/-- The first change of a hunk, and those that join it. -/
def groups (comparison : Comparison α) : List (Change α) → List (Change α × List (Change α))
  | [] => []
  | change :: later =>
      match comparison.groups later with
      | [] => [(change, [])]
      | (next, joined) :: others =>
          if comparison.joins change next then (change, next :: joined) :: others
          else (change, []) :: (next, joined) :: others

def changeRuns (change : Change α) : Script α :=
  runOf .removed change.removed ++ runOf .added change.added

/-- The changes of a hunk with what is kept between them and behind the last. -/
def runsFrom (comparison : Comparison α) (change : Change α) : List (Change α) → Script α
  | [] =>
      let stop := change.newStop + comparison.contextBehind change
      changeRuns change ++ runOf .kept (comparison.newSlice change.newStop stop)
  | next :: later =>
      changeRuns change ++ runOf .kept (comparison.newSlice change.newStop next.newStart) ++
        comparison.runsFrom next later

def hunk (comparison : Comparison α) (first : Change α) (joined : List (Change α)) : Hunk α :=
  let last := joined.getLastD first
  let oldStart := first.oldStart - contextSize
  let newStart := first.newStart - contextSize
  let behind := comparison.contextBehind last
  { oldStart
    oldCount := last.oldStop + behind - oldStart
    newStart
    newCount := last.newStop + behind - newStart
    body := runOf .kept (comparison.newSlice newStart first.newStart) ++
      comparison.runsFrom first joined }

def hunks (comparison : Comparison α) (script : Script α) : List (Hunk α) :=
  (comparison.groups (changes script)).map fun (first, joined) => comparison.hunk first joined

end Comparison

end MemberStubs.Diff
