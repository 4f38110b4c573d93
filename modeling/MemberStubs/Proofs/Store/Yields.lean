import Mathlib.Data.List.Forall2
import MemberStubs.Proofs.Text.Bytes
import MemberStubs.Store.Disk

/-! What an action does on a disk. An action yields a value if it succeeds with it, and leaves the
disk as a next one. Each action of the store yields what the disk says at its path, and steps in a
row yield what the last one does. -/

theorem List.Forall₂.exists_of_mem {related : α → β → Prop} {left : List α} {right : List β}
    (all : List.Forall₂ related left right) {value : α} (member : value ∈ left) :
    ∃ other ∈ right, related value other := by
  induction all with
  | nil => cases member
  | cons first _ induction =>
      rcases List.mem_cons.mp member with rfl | member
      · exact ⟨_, .head _, first⟩
      · rcases induction member with ⟨other, held, rest⟩
        exact ⟨other, .tail _ held, rest⟩

namespace MemberStubs

def Disk.text? (disk : Disk) (path : Path) : Option String :=
  (disk.bytes? path).bind Text.ofUtf8?

theorem Disk.text?_eq_some_iff {disk : Disk} {path : Path} {text : String} :
    disk.text? path = some text ↔ disk.bytes? path = some (Text.utf8Bytes text) := by
  simp only [text?, Option.bind_eq_some_iff, Text.ofUtf8?_eq_some_iff]
  constructor
  · rintro ⟨bytes, found, rfl⟩
    exact found
  · exact fun found => ⟨_, found, rfl⟩

namespace Attempt

def on (action : Attempt (StateM Disk) α) (disk : Disk) : Except Failure α × Disk :=
  action.run.run disk

def Yields (action : Attempt (StateM Disk) α) (disk : Disk) (value : α) (next : Disk) : Prop :=
  action.on disk = (.ok value, next)

theorem Yields.unique {action : Attempt (StateM Disk) α} {disk next next' : Disk} {value value' : α}
    (first : action.Yields disk value next) (second : action.Yields disk value' next') :
    value = value' ∧ next = next' := by
  have same := first.symm.trans second
  simpa using same

/-! ## Steps -/

@[simp] theorem yields_pure_iff {value result : α} {disk next : Disk} :
    (pure value : Attempt (StateM Disk) α).Yields disk result next ↔
      result = value ∧ next = disk := by
  show ((Except.ok value : Except Failure α), disk) = (Except.ok result, next) ↔ _
  simp [eq_comm]

@[simp] theorem yields_bind_iff {action : Attempt (StateM Disk) α}
    {then' : α → Attempt (StateM Disk) β} {disk next : Disk} {result : β} :
    (action >>= then').Yields disk result next ↔
      ∃ value between, action.Yields disk value between ∧
        (then' value).Yields between result next := by
  have step : (action >>= then').on disk =
      match action.on disk with
      | (.ok value, between) => (then' value).on between
      | (.error failure, between) => (.error failure, between) := by
    show (ExceptT.bindCont then' (action.on disk).1).run (action.on disk).2 = _
    rcases action.on disk with ⟨_ | value, between⟩ <;> rfl
  simp only [Yields, step]
  rcases action.on disk with ⟨_ | value, between⟩
  · simp
  · simp only [Prod.mk.injEq, Except.ok.injEq]
    constructor
    · exact fun rest => ⟨value, between, ⟨rfl, rfl⟩, rest⟩
    · rintro ⟨_, _, ⟨rfl, rfl⟩, rest⟩
      exact rest

@[simp] theorem yields_during_iff {step : String} {action : Attempt (StateM Disk) α}
    {disk next : Disk} {result : α} :
    (during step action).Yields disk result next ↔ action.Yields disk result next := by
  show (Except.mapError (Failure.addContext step) (action.on disk).1, (action.on disk).2) =
    (Except.ok result, next) ↔ action.on disk = (Except.ok result, next)
  rcases action.on disk with ⟨_ | value, between⟩ <;> simp [Except.mapError]

@[simp] theorem not_yields_fail {cause : FailureCause} {disk next : Disk} {result : α} :
    ¬ (fail cause : Attempt (StateM Disk) α).Yields disk result next := by
  intro yields
  cases yields

/-- An operation of the store never fails by itself; what it answers decides. -/
theorem yields_liftM_iff {operation : StateM Disk α} {disk next after : Disk} {result answer : α}
    (runs : operation.run disk = (answer, after)) :
    (liftM operation : Attempt (StateM Disk) α).Yields disk result next ↔
      result = answer ∧ next = after := by
  show (Except.ok (operation.run disk).1, (operation.run disk).2) = (Except.ok result, next) ↔ _
  rw [runs]
  simp [eq_comm]

/-! Steps over a list. Steps that leave the disk alone yield what each of them reads. -/

theorem yields_mapM_iff {action : α → Attempt (StateM Disk) β} {reads : Disk → α → β → Prop}
    (reading : ∀ {value disk result next},
      (action value).Yields disk result next ↔ reads disk value result ∧ next = disk)
    {values : List α} {disk next : Disk} {results : List β} :
    (values.mapM action).Yields disk results next ↔
      List.Forall₂ (reads disk) values results ∧ next = disk := by
  induction values generalizing disk next results with
  | nil => simp
  | cons value values induction =>
      simp only [List.mapM_cons, yields_bind_iff, yields_pure_iff, reading, induction,
        List.forall₂_cons_left_iff]
      constructor
      · rintro ⟨first, _, ⟨read, rfl⟩, rest, _, ⟨later, rfl⟩, rfl, rfl⟩
        exact ⟨⟨first, rest, read, later, rfl⟩, rfl⟩
      · rintro ⟨⟨first, rest, read, later, rfl⟩, rfl⟩
        exact ⟨first, _, ⟨read, rfl⟩, rest, _, ⟨later, rfl⟩, rfl, rfl⟩

theorem yields_forM_nil_iff {action : α → Attempt (StateM Disk) Unit} {disk next : Disk} :
    (forM ([] : List α) action).Yields disk () next ↔ next = disk := by
  rw [List.forM_nil, yields_pure_iff, and_iff_right rfl]

theorem yields_forM_cons_iff {action : α → Attempt (StateM Disk) Unit} {value : α}
    {values : List α} {disk next : Disk} :
    (forM (value :: values) action).Yields disk () next ↔
      ∃ between, (action value).Yields disk () between ∧
        (forM values action).Yields between () next := by
  rw [List.forM_cons, yields_bind_iff]
  exact ⟨fun ⟨_, between⟩ => between, fun between => ⟨(), between⟩⟩

end Attempt

namespace FileStore

open Attempt

variable {path : Path} {disk next : Disk}

@[simp] theorem yields_readBytes_iff {bytes : List UInt8} :
    (readBytes path : Attempt (StateM Disk) _).Yields disk bytes next ↔
      disk.bytes? path = some bytes ∧ next = disk := by
  have runs : (bytes? path : StateM Disk _).run disk = (disk.bytes? path, disk) := rfl
  simp only [readBytes, yields_bind_iff, yields_liftM_iff runs, and_assoc, exists_and_left,
    exists_eq_left]
  cases disk.bytes? path <;> simp [eq_comm]

@[simp] theorem yields_readText_iff {text : String} :
    (readText path : Attempt (StateM Disk) _).Yields disk text next ↔
      disk.text? path = some text ∧ next = disk := by
  simp only [readText, yields_bind_iff, yields_readBytes_iff, Disk.text?]
  cases disk.bytes? path with
  | none => simp
  | some bytes => cases decoded : Text.ofUtf8? bytes <;> simp [decoded, eq_comm]

@[simp] theorem yields_writeText_iff {text : String} :
    (writeText path text : Attempt (StateM Disk) _).Yields disk () next ↔
      disk.write? path (Text.utf8Bytes text) = some next := by
  have runs : (write path (Text.utf8Bytes text) : StateM Disk _).run disk =
      ((disk.write? path (Text.utf8Bytes text)).isSome,
        (disk.write? path (Text.utf8Bytes text)).getD disk) := by
    cases written : disk.write? path (Text.utf8Bytes text) <;>
      · simp only [write, StateT.run_bind, StateT.run_get, pure_bind, written]
        rfl
  simp only [writeText, yields_bind_iff, yields_liftM_iff runs]
  cases disk.write? path (Text.utf8Bytes text) <;> simp [eq_comm]

@[simp] theorem yields_createDirectory_iff :
    (createDirectory path : Attempt (StateM Disk) _).Yields disk () next ↔
      disk.makeDirectory path = (next, true) := by
  have runs : (makeDirectory path : StateM Disk _).run disk =
      ((disk.makeDirectory path).2, (disk.makeDirectory path).1) := rfl
  simp only [createDirectory, yields_bind_iff, yields_liftM_iff runs]
  rcases disk.makeDirectory path with ⟨made, _ | _⟩ <;> simp [eq_comm]

end FileStore

end MemberStubs
