import MemberStubs.Application.Outcome
import MemberStubs.Proofs.PathMap
import MemberStubs.Proofs.Text.Bytes

/-! The outcome for one file and its result say the same, and the files to write are those whose
outcome is another text. -/

namespace MemberStubs

/-- The hash check lets a file through that has the recorded digest, or none recorded. -/
def FileEdit.PassesHash (edit : FileEdit) (options : ApplyOptions) (bytes : List UInt8) : Prop :=
  options.requireCleanHashes = true →
    ∀ expected, edit.sha256 = some expected → expected = Digest.sha256 bytes

namespace FileOutcome

theorem hashMismatch?_eq_some_iff {edit : FileEdit} {contents : String} {mismatch : HashMismatch} :
    hashMismatch? edit contents = some mismatch ↔
      ∃ expected, edit.sha256 = some expected ∧
        expected ≠ Digest.sha256 (Text.utf8Bytes contents) ∧
        mismatch = ⟨edit.path.text, expected, Digest.sha256 (Text.utf8Bytes contents)⟩ := by
  rw [hashMismatch?]
  cases edit.sha256 with
  | none => simp
  | some expected =>
      have digest : Digest.sha256OfText contents = Digest.sha256 (Text.utf8Bytes contents) := rfl
      simp only [digest, Option.some.injEq, exists_eq_left']
      split
      · next same => simp [same]
      · next different => simp [different, eq_comm]

theorem passesHash_iff {options : ApplyOptions} {edit : FileEdit} {contents : String} :
    edit.PassesHash options (Text.utf8Bytes contents) ↔
      (options.requireCleanHashes && (hashMismatch? edit contents).isSome) = false := by
  rw [FileEdit.PassesHash, Bool.and_eq_false_imp]
  refine forall_congr' fun _ => ?_
  rw [Option.isSome_eq_false_iff, Option.isNone_iff_eq_none, Option.eq_none_iff_forall_ne_some]
  simp only [ne_eq, hashMismatch?_eq_some_iff, not_exists, not_and]
  constructor
  · intro passes mismatch expected recorded different
    exact absurd (passes expected recorded) different
  · intro clean expected recorded
    by_contra different
    exact clean _ expected recorded different rfl

section

variable {options : ApplyOptions} {edit : FileEdit} {contents : String}

theorem of_eq_changed_iff :
    (of options edit contents).change = .changed ↔
      ¬ edit.PassesHash options (Text.utf8Bytes contents) := by
  rw [passesHash_iff, of]
  cases options.requireCleanHashes && (hashMismatch? edit contents).isSome with
  | true => simp
  | false =>
      simp only [Bool.false_eq_true, if_false, not_true, iff_false]
      split <;> simp

theorem of_eq_rendered_iff {text : String} :
    (of options edit contents).change = .rendered text ↔
      edit.PassesHash options (Text.utf8Bytes contents) ∧
        edit.render contents (options.layout contents) = .ok text := by
  rw [passesHash_iff, of]
  cases options.requireCleanHashes && (hashMismatch? edit contents).isSome with
  | true => simp
  | false =>
      simp only [Bool.false_eq_true, if_false, true_and]
      split
      · next rendered => simp [rendered]
      · next misfit => simp [misfit]

/-- The hash check apart, an outcome depends on how insertions look. -/
theorem of_congr {first second : ApplyOptions}
    (passes : edit.PassesHash first (Text.utf8Bytes contents))
    (passes' : edit.PassesHash second (Text.utf8Bytes contents))
    (indent : first.indentUnit = second.indentUnit) (newline : first.newline = second.newline) :
    of first edit contents = of second edit contents := by
  have layout : first.layout contents = second.layout contents := by
    rw [ApplyOptions.layout, ApplyOptions.layout, indent, newline]
  rw [of, of, passesHash_iff.mp passes, passesHash_iff.mp passes', layout]

end

/-! ## Results -/

def textAfter (outcome : FileOutcome) : String :=
  match outcome.change with
  | .rendered text => text
  | _ => outcome.contents

theorem textAfter_of_rendered {outcome : FileOutcome} {text : String}
    (rendered : outcome.change = .rendered text) : outcome.textAfter = text := by
  rw [textAfter, rendered]

theorem textAfter_of_not_rendered {outcome : FileOutcome}
    (other : ∀ text, outcome.change ≠ .rendered text) :
    outcome.textAfter = outcome.contents := by
  rw [textAfter]
  split
  · next text rendered => exact absurd rendered (other text)
  · rfl

section

variable (outcome : FileOutcome) (dryRun : Bool)

theorem path_result : (outcome.result dryRun).path = outcome.edit.path.text := by
  rw [result]
  split <;> rfl

theorem classes_result :
    (outcome.result dryRun).classes = .ofNat outcome.edit.classes.length := by
  rw [result]
  split <;> rfl

theorem sha256Before_result :
    (outcome.result dryRun).sha256Before =
      some (Digest.sha256 (Text.utf8Bytes outcome.contents)) := by
  rw [result]
  split <;> rfl

/-- The status, the stubs and the digest of a result go with the change. -/
theorem result_cases :
    (∃ text, outcome.change = .rendered text ∧
      (outcome.result dryRun).status = (if dryRun then .skipped else .applied) ∧
      (outcome.result dryRun).stubsInserted = .ofNat outcome.edit.stubCount ∧
      (outcome.result dryRun).sha256After = some (Digest.sha256 (Text.utf8Bytes text))) ∨
    ((∀ text, outcome.change ≠ .rendered text) ∧
      (outcome.result dryRun).status = .blocked ∧
      (outcome.result dryRun).message.isSome = true ∧
      (outcome.result dryRun).stubsInserted = 0 ∧
      (outcome.result dryRun).sha256After = none) := by
  rw [result]
  cases outcome.change with
  | changed => exact Or.inr ⟨by simp, rfl, rfl, rfl, rfl⟩
  | misfit misfit => exact Or.inr ⟨by simp, rfl, rfl, rfl, rfl⟩
  | rendered text => exact Or.inl ⟨text, rfl, rfl, rfl, rfl⟩

theorem status_result_eq_blocked_iff :
    (outcome.result dryRun).status = .blocked ↔ ∀ text, outcome.change ≠ .rendered text := by
  rcases outcome.result_cases dryRun with ⟨text, rendered, status, _⟩ | ⟨other, status, _⟩
  · rw [status, rendered]
    cases dryRun <;> simp
  · exact iff_of_true status other

theorem isSome_message_of_blocked (blocked : (outcome.result dryRun).status = .blocked) :
    (outcome.result dryRun).message.isSome = true := by
  rcases outcome.result_cases dryRun with ⟨text, rendered, _⟩ | ⟨_, _, message, _⟩
  · exact absurd rendered ((outcome.status_result_eq_blocked_iff dryRun).mp blocked text)
  · exact message

end

/-- The path of a file whose text becomes another one, with that text. -/
def rewriting? (outcome : FileOutcome) : Option (Path × String) :=
  if outcome.textAfter = outcome.contents then none
  else some (outcome.edit.path, outcome.textAfter)

theorem rewriting?_eq (outcome : FileOutcome) :
    outcome.rewriting? =
      (outcome.rendering?.filter fun (_, before, text) => before ≠ text).map
        fun (path, _, text) => (path, text) := by
  rw [rewriting?, rendering?, textAfter]
  cases outcome.change with
  | changed => simp
  | misfit misfit => simp
  | rendered text =>
      by_cases same : text = outcome.contents
      · simp [same, Option.filter]
      · simp [same, Option.filter, Ne.symm same]

end FileOutcome

/-! ## All outcomes together -/

/-- No two outcomes are for one path, however it is spelled. -/
def Outcomes.Apart (outcomes : List FileOutcome) : Prop :=
  outcomes.Pairwise fun first second =>
    first.edit.path.sameComponents second.edit.path = false

namespace Outcomes

variable {outcomes : List FileOutcome}

theorem apart_renderings (apart : Apart outcomes) (view : Path × String × String → α) :
    PathMap.Apart ((outcomes.filterMap FileOutcome.rendering?).map
      fun rendering => (rendering.1, view rendering)) := by
  rw [PathMap.Apart, List.pairwise_map, List.pairwise_filterMap]
  refine apart.imp fun {first second} different rendering held rendering' held' => ?_
  have path : ∀ {outcome : FileOutcome} {rendering},
      outcome.rendering? = some rendering → rendering.1 = outcome.edit.path := by
    intro outcome rendering rendered
    rw [FileOutcome.rendering?] at rendered
    split at rendered <;> cases rendered
    rfl
  rw [path held, path held']
  exact different

/-- The files to write are those whose text becomes another one. -/
theorem perm_modified (apart : Apart outcomes) :
    (modified outcomes).Perm (outcomes.filterMap FileOutcome.rewriting?) := by
  have before := apart_renderings apart fun rendering => rendering.2.1
  have after := PathMap.perm_ofList (apart_renderings apart fun rendering => rendering.2.2)
  refine (after.filter _).trans (.of_eq ?_)
  have changed : ∀ rendering ∈ outcomes.filterMap FileOutcome.rendering?,
      decide ((Outcomes.before outcomes).find? rendering.1 ≠ some rendering.2.2) =
        decide (rendering.2.1 ≠ rendering.2.2) := by
    intro rendering held
    have found := PathMap.find?_ofList before (List.mem_map_of_mem held)
    rw [Outcomes.before, found]
    simp
  rw [List.filter_map]
  show ((outcomes.filterMap FileOutcome.rendering?).filter fun rendering =>
    decide ((Outcomes.before outcomes).find? rendering.1 ≠ some rendering.2.2)).map _ = _
  rw [List.filter_congr changed, List.filter_filterMap, List.map_filterMap]
  apply List.filterMap_congr
  intro outcome _
  rw [FileOutcome.rewriting?_eq]

theorem mem_modified_iff (apart : Apart outcomes) {file : Path × String} :
    file ∈ modified outcomes ↔
      ∃ outcome ∈ outcomes, outcome.textAfter ≠ outcome.contents ∧
        file = (outcome.edit.path, outcome.textAfter) := by
  rw [(perm_modified apart).mem_iff, List.mem_filterMap]
  refine exists_congr fun outcome => and_congr_right fun _ => ?_
  rw [FileOutcome.rewriting?]
  split
  · next same => simp [same]
  · next different => simp [different, eq_comm]

end Outcomes

/-! ## What a record says of its results -/

/-- A record tells of a policy block if one of its results is blocked. -/
theorem Outcomes.policyBlock?_record (options : ApplyOptions) (tool : Tool) (endedAt : Timestamp)
    (outcomes : List FileOutcome) :
    (record options tool endedAt outcomes).policyBlock? = none ↔
      ∀ result ∈ (record options tool endedAt outcomes).results, result.status ≠ .blocked := by
  have results : (record options tool endedAt outcomes).results =
      outcomes.map fun outcome => outcome.result options.dryRun := rfl
  have verified : (record options tool endedAt outcomes).preconditions.verified =
      outcomes.all FileOutcome.isAttempted := rfl
  rw [ApplyRecord.policyBlock?, verified, results, List.forall_mem_map]
  cases attempted : outcomes.all FileOutcome.isAttempted with
  | false =>
      simp only [Bool.not_false, if_true, reduceCtorEq, false_iff, not_forall, not_not]
      rcases List.all_eq_false.mp attempted with ⟨outcome, held, changed⟩
      refine ⟨outcome, held, (outcome.status_result_eq_blocked_iff _).mpr fun text rendered => ?_⟩
      simp [FileOutcome.isAttempted, rendered] at changed
  | true =>
      simp only [Bool.not_true, Bool.false_eq_true, if_false]
      have messages : (((outcomes.map fun outcome => outcome.result options.dryRun).filter
          fun result => result.status = .blocked).filterMap FileResult.message) = [] ↔
          ∀ outcome ∈ outcomes, (outcome.result options.dryRun).status ≠ .blocked := by
        rw [List.filterMap_eq_nil_iff]
        constructor
        · intro silent outcome held blocked
          have message := outcome.isSome_message_of_blocked options.dryRun blocked
          rw [silent _ (List.mem_filter.mpr ⟨List.mem_map_of_mem held, by simpa using blocked⟩)]
            at message
          cases message
        · intro none result member
          rcases List.mem_filter.mp member with ⟨held, blocked⟩
          rcases List.mem_map.mp held with ⟨outcome, given, rfl⟩
          exact absurd (by simpa using blocked) (none outcome given)
      rw [← messages]
      split
      · next empty => exact iff_of_true rfl empty
      · next other => exact iff_of_false (by simp) other

end MemberStubs
