import MemberStubs.Diff.Script

namespace MemberStubs.Diff

/-! Sliding runs. A removed or added run can trade places with a kept run next to it as far as their
facing ends agree, and with a run of the other kind. Sliding every run as far up and then as far down
as it goes brings runs of one kind together. -/

/-- A run, those before it with the nearest first, and those behind it. -/
structure Cursor (α : Type) where
  before : Script α
  current : Run α
  after : Script α

/-- The runs in their order, each one read from its end. -/
def readBack (script : Script α) : Script α :=
  script.map fun run => { run with values := run.values.reverse }

/-- The same place seen from the end of the script. -/
def Cursor.fromEnd (cursor : Cursor α) : Cursor α :=
  { before := readBack cursor.after
    current := { cursor.current with values := cursor.current.values.reverse }
    after := readBack cursor.before }

/-- Puts kept elements in front of a script, joined with those that it keeps first. -/
def keepBefore (values : List α) : Script α → Script α
  | ⟨.kept, following⟩ :: later => ⟨.kept, values ++ following⟩ :: later
  | script => ⟨.kept, values⟩ :: script

def weight : Script α → Nat
  | [] => 0
  | run :: later => run.values.length + 1 + weight later

theorem weight_cons (run : Run α) (script : Script α) :
    weight (run :: script) = run.values.length + 1 + weight script :=
  rfl

theorem weight_runOf_append_le (kind : RunKind) (values : List α) (script : Script α) :
    weight (runOf kind values ++ script) ≤ values.length + 1 + weight script := by
  unfold runOf
  split <;> simp [weight]

def slideUp [DecidableEq α] (before : Script α) (current : Run α) (after : Script α) : Cursor α :=
  match before with
  | [] => ⟨[], current, after⟩
  | previous :: earlier =>
      if previous.kind = .kept then
        let shared := commonSuffixLength current.values previous.values
        if _slides : 0 < shared ∧ shared ≤ previous.values.length then
          let stays := previous.values.take (previous.values.length - shared)
          let tail := current.values.drop (current.values.length - shared)
          let moved := tail ++ current.values.take (current.values.length - shared)
          slideUp (runOf .kept stays ++ earlier) { current with values := moved }
            (keepBefore tail after)
        else if previous.values.isEmpty then slideUp earlier current after
        else ⟨previous :: earlier, current, after⟩
      else if previous.kind = current.kind then
        slideUp earlier { current with values := previous.values ++ current.values } after
      else slideUp earlier current (previous :: after)
termination_by weight before
decreasing_by
  · have := weight_runOf_append_le .kept stays earlier
    simp only [weight_cons, stays, shared, List.length_take] at *
    omega
  all_goals
    rw [weight_cons]
    omega

def slideDown [DecidableEq α] (cursor : Cursor α) : Cursor α :=
  let seen := cursor.fromEnd
  (slideUp seen.before seen.current seen.after).fromEnd

/-- Slides the runs of one kind, from the first to the last. -/
def slideFrom [DecidableEq α] (kind : RunKind) : Nat → Script α → Script α → Script α
  | 0, before, script => before.reverse ++ script
  | _ + 1, before, [] => before.reverse
  | remaining + 1, before, run :: later =>
      if run.kind = kind then
        let cursor := slideDown (slideUp before run later)
        slideFrom kind remaining (cursor.current :: cursor.before) cursor.after
      else slideFrom kind remaining (run :: before) later

/-- A script never has more runs than elements, so its weight bounds the number of slides. -/
def slideAll [DecidableEq α] (kind : RunKind) (script : Script α) : Script α :=
  slideFrom kind (weight script + 1) [] script

def compact [DecidableEq α] (script : Script α) : Script α :=
  slideAll .added (slideAll .removed script)

def compactScript [DecidableEq α] (old new : List α) : Script α :=
  compact (shortestScript old new)

example : compactScript ['a', 'b', 'a'] ['a', 'b', 'a', 'b', 'a'] =
    [⟨.kept, ['a', 'b', 'a']⟩, ⟨.added, ['b', 'a']⟩] := by
  decide +kernel

end MemberStubs.Diff
