import MemberStubs.Diff.Snake

namespace MemberStubs.Diff

/-! A script tells how one list becomes another: runs of elements that are kept, removed or added. -/

inductive RunKind where
  | kept
  | removed
  | added
  deriving DecidableEq, Repr

structure Run (α : Type) where
  kind : RunKind
  values : List α
  deriving DecidableEq, Repr

abbrev Script (α : Type) := List (Run α)

namespace Script

/-- The list that a script starts from. -/
def old (script : Script α) : List α :=
  (script.filter fun run => run.kind ≠ .added).flatMap Run.values

/-- The list that a script leads to. -/
def new (script : Script α) : List α :=
  (script.filter fun run => run.kind ≠ .removed).flatMap Run.values

end Script

/-- A run, unless it would be empty. -/
def runOf (kind : RunKind) (values : List α) : Script α :=
  if values.isEmpty then [] else [⟨kind, values⟩]

/-- Keeps what two lists have in common at both ends, and goes on with the two halves around the
middle of the rest. -/
def scriptFrom [DecidableEq α] (frontiers : Frontiers) (old new : List α) :
    Script α × Frontiers :=
  let front := commonPrefixLength old new
  let back := commonSuffixLength (old.drop front) (new.drop front)
  let oldRest := (old.drop front).take (old.length - front - back)
  let newRest := (new.drop front).take (new.length - front - back)
  let (inner, frontiers) :=
    if oldRest.isEmpty || newRest.isEmpty then
      (runOf .removed oldRest ++ runOf .added newRest, frontiers)
    else
      match middle? frontiers oldRest newRest with
      | (frontiers, some (x, y)) =>
          if _halves : (oldRest.take x).length + (newRest.take y).length < old.length + new.length ∧
              (oldRest.drop x).length + (newRest.drop y).length < old.length + new.length then
            let (first, frontiers) := scriptFrom frontiers (oldRest.take x) (newRest.take y)
            let (second, frontiers) := scriptFrom frontiers (oldRest.drop x) (newRest.drop y)
            (first ++ second, frontiers)
          else (runOf .removed oldRest ++ runOf .added newRest, frontiers)
      | (frontiers, none) => (runOf .removed oldRest ++ runOf .added newRest, frontiers)
  (runOf .kept (old.take front) ++ inner ++ runOf .kept (old.drop (old.length - back)), frontiers)
termination_by old.length + new.length
decreasing_by
  · exact _halves.1
  · exact _halves.2

def shortestScript [DecidableEq α] (old new : List α) : Script α :=
  (scriptFrom {} old new).1

end MemberStubs.Diff
