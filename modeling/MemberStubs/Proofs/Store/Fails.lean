import MemberStubs.Proofs.Store.Yields

/-! Actions that fail on a disk. An action fails where the first of its steps does that yields
nothing, and what was done before that step stays done. -/

namespace MemberStubs

namespace Attempt

def Fails (action : Attempt (StateM Disk) α) (disk : Disk) (failure : Failure) (next : Disk) : Prop :=
  action.on disk = (.error failure, next)

@[simp] theorem not_fails_pure {value : α} {disk next : Disk} {failure : Failure} :
    ¬ (pure value : Attempt (StateM Disk) α).Fails disk failure next := by
  intro fails
  cases fails

@[simp] theorem fails_fail_iff {cause : FailureCause} {disk next : Disk} {failure : Failure} :
    (fail cause : Attempt (StateM Disk) α).Fails disk failure next ↔
      failure = { cause } ∧ next = disk := by
  show ((Except.error { cause } : Except Failure α), disk) = (Except.error failure, next) ↔ _
  simp [eq_comm]

@[simp] theorem fails_bind_iff {action : Attempt (StateM Disk) α}
    {then' : α → Attempt (StateM Disk) β} {disk next : Disk} {failure : Failure} :
    (action >>= then').Fails disk failure next ↔
      action.Fails disk failure next ∨
        ∃ value between, action.Yields disk value between ∧
          (then' value).Fails between failure next := by
  have step : (action >>= then').on disk =
      match action.on disk with
      | (.ok value, between) => (then' value).on between
      | (.error failure, between) => (.error failure, between) := by
    show (ExceptT.bindCont then' (action.on disk).1).run (action.on disk).2 = _
    rcases action.on disk with ⟨_ | value, between⟩ <;> rfl
  simp only [Fails, Yields, step]
  rcases action.on disk with ⟨_ | value, between⟩
  · simp
  · simp only [Prod.mk.injEq, Except.ok.injEq, reduceCtorEq, false_and, false_or]
    constructor
    · exact fun rest => ⟨value, between, ⟨rfl, rfl⟩, rest⟩
    · rintro ⟨_, _, ⟨rfl, rfl⟩, rest⟩
      exact rest

@[simp] theorem fails_during_iff {step : String} {action : Attempt (StateM Disk) α}
    {disk next : Disk} {failure : Failure} :
    (during step action).Fails disk failure next ↔
      ∃ inner, action.Fails disk inner next ∧ failure = inner.addContext step := by
  show (Except.mapError (Failure.addContext step) (action.on disk).1, (action.on disk).2) =
    (Except.error failure, next) ↔ ∃ inner, action.on disk = (.error inner, next) ∧ _
  rcases action.on disk with ⟨inner | value, between⟩
  · simp only [Except.mapError, Prod.mk.injEq, Except.error.injEq]
    constructor
    · rintro ⟨rfl, rfl⟩
      exact ⟨inner, ⟨rfl, rfl⟩, rfl⟩
    · rintro ⟨_, ⟨rfl, rfl⟩, rfl⟩
      exact ⟨rfl, rfl⟩
  · simp [Except.mapError]

@[simp] theorem not_fails_liftM {operation : StateM Disk α} {disk next : Disk} {failure : Failure} :
    ¬ (liftM operation : Attempt (StateM Disk) α).Fails disk failure next := by
  intro fails
  cases fails

/-- Steps that leave the disk alone fail, over a list, at the first value that cannot be read. -/
theorem fails_mapM_iff {action : α → Attempt (StateM Disk) β} {reads : Disk → α → β → Prop}
    {fault : α → Failure}
    (reading : ∀ {value disk result next},
      (action value).Yields disk result next ↔ reads disk value result ∧ next = disk)
    (failing : ∀ {value disk failure next}, (action value).Fails disk failure next ↔
      (∀ result, ¬ reads disk value result) ∧ failure = fault value ∧ next = disk)
    {values : List α} {disk next : Disk} {failure : Failure} :
    (values.mapM action).Fails disk failure next ↔
      ∃ earlier value later, values = earlier ++ value :: later ∧
        (∀ before ∈ earlier, ∃ result, reads disk before result) ∧
        (∀ result, ¬ reads disk value result) ∧ failure = fault value ∧ next = disk := by
  induction values generalizing disk next failure with
  | nil => simp
  | cons first values induction =>
      simp only [List.mapM_cons, fails_bind_iff, not_fails_pure, reading, failing, induction,
        and_false, exists_false, or_false]
      constructor
      · rintro (⟨unread, rfl, rfl⟩ | ⟨result, _, ⟨read, rfl⟩, earlier, value, later, rfl, before,
          unread, rfl, rfl⟩)
        · exact ⟨[], first, values, rfl, by simp, unread, rfl, rfl⟩
        · exact ⟨first :: earlier, value, later, rfl,
            List.forall_mem_cons.mpr ⟨⟨result, read⟩, before⟩, unread, rfl, rfl⟩
      · rintro ⟨earlier, value, later, split, before, unread, rfl, rfl⟩
        cases earlier with
        | nil =>
            cases split
            exact .inl ⟨unread, rfl, rfl⟩
        | cons _ earlier =>
            cases split
            rcases List.forall_mem_cons.mp before with ⟨⟨result, read⟩, before⟩
            exact .inr ⟨result, _, ⟨read, rfl⟩, earlier, value, later, rfl, before, unread, rfl, rfl⟩

end Attempt

namespace FileStore

open Attempt

variable {path : Path} {disk next : Disk} {failure : Failure}

@[simp] theorem fails_readBytes_iff :
    (readBytes path : Attempt (StateM Disk) _).Fails disk failure next ↔
      disk.bytes? path = none ∧ failure = { cause := .cannotRead path } ∧ next = disk := by
  have runs : (bytes? path : StateM Disk _).run disk = (disk.bytes? path, disk) := rfl
  simp only [readBytes, fails_bind_iff, yields_liftM_iff runs, not_fails_liftM, false_or, and_assoc,
    exists_and_left, exists_eq_left]
  cases disk.bytes? path <;> simp

/-- A file that is missing cannot be read as a text, nor can one whose bytes are none. -/
@[simp] theorem fails_readText_iff :
    (readText path : Attempt (StateM Disk) _).Fails disk failure next ↔
      disk.text? path = none ∧ failure = { cause := .cannotRead path } ∧ next = disk := by
  simp only [readText, fails_bind_iff, fails_readBytes_iff, yields_readBytes_iff, Disk.text?]
  cases disk.bytes? path with
  | none => simp
  | some bytes => cases decoded : Text.ofUtf8? bytes <;> simp [decoded]

end FileStore

end MemberStubs
