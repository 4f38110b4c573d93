import MemberStubs.Diff.Hunk
import MemberStubs.Proofs.Diff.Script

/-! Hunks put into effect. A hunk tells where it stands in either list and what stands there, and it
applies only if all of that is so. -/

namespace MemberStubs.Diff

/-- How a hunk has to be for the elements `rest` of the old list, the first of which has the place
`oldAt`, when the new list is known up to the place `newAt`. -/
structure Hunk.Fits (hunk : Hunk α) (oldAt newAt : Nat) (rest : List α) : Prop where
  starts : oldAt ≤ hunk.oldStart
  inside : hunk.oldStart - oldAt ≤ rest.length
  newStart : hunk.newStart = newAt + (hunk.oldStart - oldAt)
  oldCount : hunk.oldCount = hunk.body.old.length
  newCount : hunk.newCount = hunk.body.new.length
  found : hunk.body.old <+: rest.drop (hunk.oldStart - oldAt)

instance [DecidableEq α] (hunk : Hunk α) (oldAt newAt : Nat) (rest : List α) :
    Decidable (hunk.Fits oldAt newAt rest) :=
  decidable_of_iff (oldAt ≤ hunk.oldStart ∧ hunk.oldStart - oldAt ≤ rest.length ∧
      hunk.newStart = newAt + (hunk.oldStart - oldAt) ∧ hunk.oldCount = hunk.body.old.length ∧
        hunk.newCount = hunk.body.new.length ∧
          hunk.body.old <+: rest.drop (hunk.oldStart - oldAt))
    ⟨fun ⟨starts, inside, newStart, oldCount, newCount, found⟩ =>
        ⟨starts, inside, newStart, oldCount, newCount, found⟩,
      fun ⟨starts, inside, newStart, oldCount, newCount, found⟩ =>
        ⟨starts, inside, newStart, oldCount, newCount, found⟩⟩

/-- The new list from `newAt` on, if every hunk fits. -/
def applyFrom? [DecidableEq α] (oldAt newAt : Nat) (rest : List α) :
    List (Hunk α) → Option (List α)
  | [] => some rest
  | hunk :: later =>
      if hunk.Fits oldAt newAt rest then
        let skipped := hunk.oldStart - oldAt
        (applyFrom? (hunk.oldStart + hunk.oldCount) (hunk.newStart + hunk.newCount)
            (rest.drop (skipped + hunk.oldCount)) later).map
          fun result => rest.take skipped ++ (hunk.body.new ++ result)
      else none

def applyHunks? [DecidableEq α] (old : List α) (hunks : List (Hunk α)) : Option (List α) :=
  applyFrom? 0 0 old hunks

theorem applyFrom?_cons_eq_some [DecidableEq α] {hunk : Hunk α} {later : List (Hunk α)}
    {oldAt newAt : Nat} {rest result : List α}
    (applied : applyFrom? oldAt newAt rest (hunk :: later) = some result) :
    hunk.Fits oldAt newAt rest ∧ ∃ behind,
      applyFrom? (hunk.oldStart + hunk.oldCount) (hunk.newStart + hunk.newCount)
        (rest.drop (hunk.oldStart - oldAt + hunk.oldCount)) later = some behind ∧
      result = rest.take (hunk.oldStart - oldAt) ++ (hunk.body.new ++ behind) := by
  rw [applyFrom?] at applied
  split at applied
  · next fits =>
      rcases Option.map_eq_some_iff.mp applied with ⟨behind, appliedLater, rfl⟩
      exact ⟨fits, behind, appliedLater, rfl⟩
  · cases applied

/-- A hunk replaces what it finds. -/
theorem applyFrom?_cons [DecidableEq α] {hunk : Hunk α} {later : List (Hunk α)}
    {oldAt newAt : Nat} {front behind result : List α}
    (oldStart : hunk.oldStart = oldAt + front.length)
    (newStart : hunk.newStart = newAt + front.length)
    (oldCount : hunk.oldCount = hunk.body.old.length)
    (newCount : hunk.newCount = hunk.body.new.length)
    (applied : applyFrom? (hunk.oldStart + hunk.oldCount) (hunk.newStart + hunk.newCount) behind
      later = some result) :
    applyFrom? oldAt newAt (front ++ (hunk.body.old ++ behind)) (hunk :: later) =
      some (front ++ (hunk.body.new ++ result)) := by
  have skipped : hunk.oldStart - oldAt = front.length := by omega
  have fits : hunk.Fits oldAt newAt (front ++ (hunk.body.old ++ behind)) := by
    refine ⟨by omega, ?_, by rw [newStart, skipped], oldCount, newCount, ?_⟩
    · rw [skipped, List.length_append]
      exact Nat.le_add_right ..
    · rw [skipped, List.drop_left]
      exact List.prefix_append ..
  have rest : (front ++ (hunk.body.old ++ behind)).drop (front.length + hunk.oldCount) = behind := by
    rw [← List.drop_drop, List.drop_left, oldCount, List.drop_left]
  rw [applyFrom?, if_pos fits]
  dsimp only
  rw [skipped, rest, applied, List.take_left]
  rfl

/-! ## Changes in their places -/

/-- Changes that make the elements of the new list from `newAt` on of those of the old list from
`oldAt` on. Something is kept between two changes. -/
inductive Aligned : Nat → Nat → List α → List α → List (Change α) → Prop where
  | nil {oldAt newAt : Nat} (rest : List α) : Aligned oldAt newAt rest rest []
  | cons {oldAt newAt : Nat} {oldRest newRest : List α} {change : Change α}
      {later : List (Change α)} (gap : List α)
      (oldStart : change.oldStart = oldAt + gap.length)
      (newStart : change.newStart = newAt + gap.length)
      (apart : ∀ next ∈ later.head?, change.oldStop < next.oldStart)
      (aligned : Aligned change.oldStop change.newStop oldRest newRest later) :
      Aligned oldAt newAt (gap ++ (change.removed ++ oldRest)) (gap ++ (change.added ++ newRest))
        (change :: later)

namespace Aligned

variable {oldAt newAt : Nat} {oldRest newRest : List α} {changes : List (Change α)}

theorem le_oldStart (aligned : Aligned oldAt newAt oldRest newRest changes) :
    ∀ first ∈ changes.head?, oldAt ≤ first.oldStart := by
  cases aligned with
  | nil rest => exact nofun
  | cons gap oldStart newStart apart aligned =>
      rintro first ⟨⟩
      omega

theorem prepend (values : List α)
    (aligned : Aligned (oldAt + values.length) (newAt + values.length) oldRest newRest changes) :
    Aligned oldAt newAt (values ++ oldRest) (values ++ newRest) changes := by
  cases aligned with
  | nil rest => exact .nil _
  | cons gap oldStart newStart apart aligned =>
      rw [← List.append_assoc values, ← List.append_assoc values]
      refine .cons (values ++ gap) ?_ ?_ apart aligned <;>
        · rw [List.length_append]
          omega

/-- What is kept in front of the next change can be passed. -/
theorem pass (aligned : Aligned oldAt newAt oldRest newRest changes) (count : Nat)
    (before : ∀ first ∈ changes.head?, oldAt + count ≤ first.oldStart) :
    oldRest.take count = newRest.take count ∧
      Aligned (oldAt + count) (newAt + count) (oldRest.drop count) (newRest.drop count) changes := by
  cases aligned with
  | nil rest => exact ⟨rfl, .nil _⟩
  | @cons _ _ oldRest newRest change later gap oldStart newStart apart aligned =>
      have inside : count ≤ gap.length := by
        have := before change rfl
        omega
      rw [List.take_append_of_le_length inside, List.take_append_of_le_length inside,
        List.drop_append_of_le_length inside, List.drop_append_of_le_length inside]
      refine ⟨rfl, .cons (gap.drop count) ?_ ?_ apart aligned⟩ <;>
        · rw [List.length_drop]
          omega

end Aligned

/-- The change at hand begins where it says and ends where the script goes on. -/
theorem aligned_changesFrom {script : Script α} (keeps : script.Keeps) (oldAt newAt : Nat) :
    Aligned oldAt newAt script.old script.new (changesFrom oldAt newAt none script) ∧
    ∀ change : Change α, change.oldStop = oldAt → change.newStop = newAt →
      Aligned change.oldStart change.newStart (change.removed ++ script.old)
        (change.added ++ script.new) (changesFrom oldAt newAt (some change) script) := by
  induction script generalizing oldAt newAt with
  | nil =>
      refine ⟨.nil [], fun change _ _ => ?_⟩
      exact .cons [] rfl rfl nofun (.nil [])
  | cons run later induction =>
      rcases List.forall_mem_cons.mp keeps with ⟨here, keepsLater⟩
      rcases run with ⟨_ | _ | _, values⟩
      · have following := (induction keepsLater (oldAt + values.length) (newAt + values.length)).1
        have prepended := following.prepend values
        refine ⟨prepended, ?_⟩
        rintro change rfl rfl
        refine .cons [] rfl rfl (fun next head => ?_) prepended
        have notEmpty : 0 < values.length := List.length_pos_iff.mpr (here rfl)
        have := following.le_oldStart next head
        omega
      · have grown := (induction keepsLater (oldAt + values.length) newAt).2
        refine ⟨grown ⟨oldAt, newAt, values, []⟩ rfl rfl, ?_⟩
        rintro change rfl rfl
        have whole := grown { change with removed := change.removed ++ values }
          (by simp [Change.oldStop, Nat.add_assoc]) rfl
        rw [List.append_assoc] at whole
        exact whole
      · have grown := (induction keepsLater oldAt (newAt + values.length)).2
        refine ⟨grown ⟨oldAt, newAt, [], values⟩ rfl rfl, ?_⟩
        rintro change rfl rfl
        have whole := grown { change with added := change.added ++ values } rfl
          (by simp [Change.newStop, Nat.add_assoc])
        rw [List.append_assoc] at whole
        exact whole

/-! ## Groups of changes -/

namespace Comparison

/-- Changes in groups, none of which joins the one before it. -/
inductive Grouped (comparison : Comparison α) :
    List (Change α) → List (Change α × List (Change α)) → Prop where
  | nil : Grouped comparison [] []
  | cons {first : Change α} {joined later : List (Change α)}
      {groups : List (Change α × List (Change α))}
      (apart : ∀ next ∈ later.head?, comparison.joins (joined.getLastD first) next = false)
      (grouped : Grouped comparison later groups) :
      Grouped comparison (first :: (joined ++ later)) ((first, joined) :: groups)

theorem grouped_groups (comparison : Comparison α) (changes : List (Change α)) :
    comparison.Grouped changes (comparison.groups changes) := by
  induction changes with
  | nil => exact .nil
  | cons change later induction =>
      rw [groups]
      split
      · next none =>
          rw [none] at induction
          cases induction
          exact @Grouped.cons _ comparison change [] [] [] nofun .nil
      · next next joined others split =>
          rw [split] at induction
          split
          · cases induction with
            | cons apart grouped =>
                refine @Grouped.cons _ comparison change (next :: joined) _ _ ?_ grouped
                rwa [List.getLastD_cons]
          · next joins =>
              have first : later.head? = some next := by
                cases induction
                rfl
              refine @Grouped.cons _ comparison change [] _ _ (fun other head => ?_) induction
              cases first.symm.trans head
              simpa using joins

/-! ## Runs of a hunk -/

/-- What a change and the runs from it on make of what is left of both lists. They end at the given
places, so far in front of the next change that its context does not reach them. -/
structure Covers (comparison : Comparison α) (change : Change α) (oldRest newRest : List α)
    (script : Script α) (oldStop newStop : Nat) (later : List (Change α)) : Prop where
  old : change.removed ++ oldRest = script.old ++ comparison.old.drop oldStop
  new : change.added ++ newRest = script.new ++ comparison.new.drop newStop
  oldEnds : change.oldStart + script.old.length = oldStop
  newEnds : change.newStart + script.new.length = newStop
  aligned : Aligned oldStop newStop (comparison.old.drop oldStop) (comparison.new.drop newStop) later
  far : ∀ next ∈ later.head?, oldStop + contextSize ≤ next.oldStart

section

variable {comparison : Comparison α} {change : Change α} {oldRest newRest : List α}
  {joined later : List (Change α)}

/-- A change, and then what both lists keep. -/
theorem leads_changeRuns_append (change : Change α) (values : List α) :
    (changeRuns change ++ runOf .kept values).Leads (change.removed ++ values)
      (change.added ++ values) :=
  (Script.Leads.replaced change.removed change.added).append (.kept values)

/-- Between a change and one that does not join it there is room for the context of both. -/
theorem far_of_not_joins (atOld : comparison.old.drop change.oldStop = oldRest)
    (atNew : comparison.new.drop change.newStop = newRest)
    (aligned : Aligned change.oldStop change.newStop oldRest newRest later)
    (apart : ∀ next ∈ later.head?, change.oldStop < next.oldStart)
    (notJoined : ∀ next ∈ later.head?, comparison.joins change next = false) :
    ∀ next ∈ later.head?,
      change.oldStop + comparison.contextBehind change + contextSize ≤ next.oldStart := by
  cases aligned with
  | nil rest => exact nofun
  | @cons _ _ oldRest newRest next later gap oldStart newStart apart' aligned =>
      rintro other ⟨⟩
      have between := apart next rfl
      have free := of_decide_eq_false (notJoined next rfl)
      have oldLength := congrArg List.length atOld
      have newLength := congrArg List.length atNew
      simp only [List.length_drop, List.length_append] at oldLength newLength
      simp only [contextBehind, contextSize] at free ⊢
      omega

theorem covers_last (atOld : comparison.old.drop change.oldStop = oldRest)
    (atNew : comparison.new.drop change.newStop = newRest)
    (aligned : Aligned change.oldStop change.newStop oldRest newRest later)
    (apart : ∀ next ∈ later.head?, change.oldStop < next.oldStart)
    (notJoined : ∀ next ∈ later.head?, comparison.joins change next = false) :
    comparison.Covers change oldRest newRest (comparison.runsFrom change [])
      (change.oldStop + comparison.contextBehind change)
      (change.newStop + comparison.contextBehind change) later := by
  have far := far_of_not_joins atOld atNew aligned apart notJoined
  have passed := aligned.pass (comparison.contextBehind change) fun next head =>
    Nat.le_of_add_right_le (far next head)
  have context : comparison.newSlice change.newStop
      (change.newStop + comparison.contextBehind change) =
        newRest.take (comparison.contextBehind change) := by
    rw [newSlice, atNew, Nat.add_sub_cancel_left]
  have leads := leads_changeRuns_append change (newRest.take (comparison.contextBehind change))
  have oldDrop : comparison.old.drop (change.oldStop + comparison.contextBehind change) =
      oldRest.drop (comparison.contextBehind change) := by
    rw [← List.drop_drop, atOld]
  have newDrop : comparison.new.drop (change.newStop + comparison.contextBehind change) =
      newRest.drop (comparison.contextBehind change) := by
    rw [← List.drop_drop, atNew]
  have size : (newRest.take (comparison.contextBehind change)).length =
      comparison.contextBehind change := by
    rw [List.length_take, ← atNew, List.length_drop, contextBehind]
    omega
  rw [runsFrom, context]
  refine ⟨?_, ?_, ?_, ?_, ?_, far⟩
  · rw [leads.starts, oldDrop, ← passed.1, List.append_assoc, List.take_append_drop]
  · rw [leads.ends, newDrop, List.append_assoc, List.take_append_drop]
  · rw [leads.starts, List.length_append, size, ← Nat.add_assoc]
    rfl
  · rw [leads.ends, List.length_append, size, ← Nat.add_assoc]
    rfl
  · rw [oldDrop, newDrop]
    exact passed.2

theorem drop_of_split {values gap removed rest : List α} {start place : Nat}
    (split : values.drop start = gap ++ (removed ++ rest)) (at_ : place = start + gap.length) :
    values.drop (place + removed.length) = rest := by
  rw [at_, ← List.drop_drop, ← List.drop_drop, split, List.drop_left, List.drop_left]

theorem covers_runsFrom (atOld : comparison.old.drop change.oldStop = oldRest)
    (atNew : comparison.new.drop change.newStop = newRest)
    (aligned : Aligned change.oldStop change.newStop oldRest newRest (joined ++ later))
    (apart : ∀ next ∈ (joined ++ later).head?, change.oldStop < next.oldStart)
    (notJoined : ∀ next ∈ later.head?,
      comparison.joins (joined.getLastD change) next = false) :
    comparison.Covers change oldRest newRest (comparison.runsFrom change joined)
      ((joined.getLastD change).oldStop + comparison.contextBehind (joined.getLastD change))
      ((joined.getLastD change).newStop + comparison.contextBehind (joined.getLastD change))
      later := by
  induction joined generalizing change oldRest newRest with
  | nil => exact covers_last atOld atNew aligned apart notJoined
  | cons next joined induction =>
      generalize whole : (next :: joined) ++ later = changes at aligned
      cases aligned with
      | nil rest => cases whole
      | @cons _ _ oldRest newRest next later gap oldStart newStart apart' aligned =>
          cases whole
          have covers := induction (drop_of_split atOld oldStart) (drop_of_split atNew newStart)
            aligned apart' (by rwa [List.getLastD_cons] at notJoined)
          have kept : comparison.newSlice change.newStop next.newStart = gap := by
            rw [newSlice, atNew, newStart, Nat.add_sub_cancel_left, List.take_left]
          have leads := leads_changeRuns_append change gap
          rw [runsFrom, kept, List.getLastD_cons]
          refine ⟨?_, ?_, ?_, ?_, covers.aligned, covers.far⟩
          · rw [covers.old, Script.old_append, leads.starts, List.append_assoc, List.append_assoc]
          · rw [covers.new, Script.new_append, leads.ends, List.append_assoc, List.append_assoc]
          · rw [← covers.oldEnds, Script.old_append, leads.starts, oldStart, Change.oldStop]
            simp only [List.length_append]
            omega
          · rw [← covers.newEnds, Script.new_append, leads.ends, newStart, Change.newStop]
            simp only [List.length_append]
            omega

/-! ## Hunks in effect -/

/-- Where a hunk starts, if it has room for the context of its first change. -/
theorem hunk_starts {gap : List α} {oldAt newAt : Nat}
    (room : (oldAt = 0 ∧ newAt = 0) ∨ oldAt + contextSize ≤ change.oldStart)
    (oldStart : change.oldStart = oldAt + gap.length)
    (newStart : change.newStart = newAt + gap.length) :
    (comparison.hunk change joined).oldStart = oldAt + (gap.length - contextSize) ∧
      (comparison.hunk change joined).newStart = newAt + (gap.length - contextSize) := by
  simp only [hunk, contextSize] at room ⊢
  omega

theorem hunk_body {gap : List α} {newAt : Nat}
    (atNew : comparison.new.drop newAt = gap ++ newRest)
    (newStart : change.newStart = newAt + gap.length)
    (starts : (comparison.hunk change joined).newStart = newAt + (gap.length - contextSize)) :
    (comparison.hunk change joined).body =
      runOf .kept (gap.drop (gap.length - contextSize)) ++ comparison.runsFrom change joined := by
  have shown : comparison.newSlice (change.newStart - contextSize) change.newStart =
      gap.drop (gap.length - contextSize) := by
    have front : change.newStart - contextSize = newAt + (gap.length - contextSize) := starts
    have size : change.newStart - (newAt + (gap.length - contextSize)) =
        (gap.drop (gap.length - contextSize)).length := by
      rw [List.length_drop]
      omega
    rw [newSlice, front, ← List.drop_drop, atNew, size,
      List.drop_append_of_le_length (Nat.sub_le ..), List.take_left]
  rw [hunk, shown]

/-- A hunk counts what it shows, and ends where its runs do. -/
theorem hunk_counts {gap : List α} {oldAt newAt oldStop newStop : Nat}
    {hunk : Hunk α} {script : Script α}
    (covers : comparison.Covers change oldRest newRest script oldStop newStop later)
    (bodyOld : hunk.body.old = gap.drop (gap.length - contextSize) ++ script.old)
    (bodyNew : hunk.body.new = gap.drop (gap.length - contextSize) ++ script.new)
    (oldStart : change.oldStart = oldAt + gap.length)
    (newStart : change.newStart = newAt + gap.length)
    (starts : hunk.oldStart = oldAt + (gap.length - contextSize) ∧
      hunk.newStart = newAt + (gap.length - contextSize))
    (oldCount : hunk.oldCount = oldStop - hunk.oldStart)
    (newCount : hunk.newCount = newStop - hunk.newStart) :
    (hunk.oldCount = hunk.body.old.length ∧ hunk.newCount = hunk.body.new.length) ∧
      hunk.oldStart + hunk.oldCount = oldStop ∧ hunk.newStart + hunk.newCount = newStop := by
  have oldEnds := covers.oldEnds
  have newEnds := covers.newEnds
  rw [bodyOld, bodyNew, List.length_append, List.length_append, List.length_drop]
  omega

theorem applyFrom?_hunks [DecidableEq α] {changes : List (Change α)}
    {groups : List (Change α × List (Change α))} (grouped : comparison.Grouped changes groups)
    {oldAt newAt : Nat}
    (aligned : Aligned oldAt newAt (comparison.old.drop oldAt) (comparison.new.drop newAt) changes)
    (room : (oldAt = 0 ∧ newAt = 0) ∨
      ∀ first ∈ changes.head?, oldAt + contextSize ≤ first.oldStart) :
    applyFrom? oldAt newAt (comparison.old.drop oldAt)
      (groups.map fun (first, joined) => comparison.hunk first joined) =
        some (comparison.new.drop newAt) := by
  induction grouped generalizing oldAt newAt with
  | nil =>
      generalize comparison.old.drop oldAt = oldRest at aligned ⊢
      generalize comparison.new.drop newAt = newRest at aligned ⊢
      cases aligned
      rfl
  | @cons first joined later groups apart grouped induction =>
      generalize atOld : comparison.old.drop oldAt = oldRest at aligned ⊢
      generalize atNew : comparison.new.drop newAt = newRest at aligned ⊢
      cases aligned with
      | @cons _ _ oldRest newRest _ _ gap oldStart newStart apart' aligned =>
          have covers := covers_runsFrom (drop_of_split atOld oldStart)
            (drop_of_split atNew newStart) aligned apart' apart
          have applied := induction covers.aligned (.inr covers.far)
          have starts : (comparison.hunk first joined).oldStart =
              oldAt + (gap.length - contextSize) ∧
                (comparison.hunk first joined).newStart = newAt + (gap.length - contextSize) :=
            hunk_starts (room.imp id fun far => far first rfl) oldStart newStart
          have body := hunk_body atNew newStart starts.2
          have bodyOld : (comparison.hunk first joined).body.old =
              gap.drop (gap.length - contextSize) ++ (comparison.runsFrom first joined).old := by
            rw [body, Script.old_append, (Script.Leads.kept _).starts]
          have bodyNew : (comparison.hunk first joined).body.new =
              gap.drop (gap.length - contextSize) ++ (comparison.runsFrom first joined).new := by
            rw [body, Script.new_append, (Script.Leads.kept _).ends]
          have counts := hunk_counts covers bodyOld bodyNew oldStart newStart starts rfl rfl
          have taken : (gap.take (gap.length - contextSize)).length = gap.length - contextSize := by
            rw [List.length_take]
            omega
          rw [covers.old, covers.new, ← List.take_append_drop (gap.length - contextSize) gap,
            List.append_assoc, List.append_assoc, ← List.append_assoc (gap.drop _), ← bodyOld,
            ← List.append_assoc (gap.drop _), ← bodyNew]
          refine applyFrom?_cons ?_ ?_ counts.1.1 counts.1.2 ?_
          · rw [starts.1, taken]
          · rw [starts.2, taken]
          · rw [counts.2.1, counts.2.2]
            exact applied

/-- The hunks of a script make of the one list the other. -/
theorem applyHunks?_hunks [DecidableEq α] {script : Script α}
    (leads : script.Leads comparison.old comparison.new) :
    applyHunks? comparison.old (comparison.hunks script) = some comparison.new := by
  have aligned := (aligned_changesFrom leads.keeps 0 0).1
  rw [leads.starts, leads.ends] at aligned
  have whole : Aligned 0 0 (comparison.old.drop 0) (comparison.new.drop 0) (changes script) :=
    aligned
  exact applyFrom?_hunks (comparison.grouped_groups (changes script)) whole (.inl ⟨rfl, rfl⟩)

end

end Comparison

end MemberStubs.Diff
