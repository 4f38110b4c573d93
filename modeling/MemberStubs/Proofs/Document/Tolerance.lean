import MemberStubs.Proofs.Document.ApplyRecord
import MemberStubs.Proofs.Document.Plan
import MemberStubs.Proofs.Document.Snapshot

/-! Whole documents that differ in what their readers do not see are read alike. -/

namespace MemberStubs

namespace Json

/-- A value that is read from a text is read from every text that is some steps away from it. -/
def ReadsAlike (read : Json → Option α) (view : View) : Prop :=
  ∀ (text text' : String) (json json' : Json) (value : α),
    parse? text.toList = some json → parse? text'.toList = some json' →
    Relation.ReflTransGen (Step none view) json json' →
    decode? read text = some value → decode? read text' = some value

theorem Tolerates.readsAlike {read : Json → Option α} {view : View}
    (tolerates : Tolerates read view) : ReadsAlike read view := by
  intro text text' json json' value parsed parsed' steps reads
  rw [decode?, parsed, Option.bind_some] at reads
  rw [decode?, parsed', Option.bind_some]
  clear parsed'
  induction steps with
  | refl => exact reads
  | tail _ step induction => exact tolerates none _ _ value step induction

end Json

open Json

theorem documents_readAlike :
    ReadsAlike (Snapshot.ofJson? maxHeight) (Snapshot.view maxHeight) ∧
    ReadsAlike DiagnosticReport.ofJson? DiagnosticReport.view ∧
    ReadsAlike EditSet.ofJson? EditSet.view ∧
    ReadsAlike RepairPlan.ofJson? RepairPlan.view ∧
    ReadsAlike ApplyRecord.ofJson? ApplyRecord.view :=
  ⟨(Snapshot.tolerates maxHeight).readsAlike, DiagnosticReport.tolerates.readsAlike,
    EditSet.tolerates.readsAlike, RepairPlan.tolerates.readsAlike,
    ApplyRecord.tolerates.readsAlike⟩

/-! A member of a kind that nobody knows. Its kind is replaced by another one, a field is added to
its shape, and the fields of the whole snapshot change places. -/

namespace Unseen

def shape (kind : String) (added : Slots) : Json :=
  .object (Slots.fields (("kind", some (.ofString kind)) :: added))

def externals (shape : Json) : Json :=
  .array [.object (Slots.fields [("members", some (.array [.object (Slots.fields
    [("name", some (.ofString "area")), ("shape", some shape)])]))])]

def snapshot (shape : Json) : Json :=
  .object (Slots.fields [("schema", some (.ofString "snapshot")),
    ("externals", some (externals shape))])

def swapped (shape : Json) : Json :=
  .object (Slots.fields [("externals", some (externals shape)),
    ("schema", some (.ofString "snapshot"))])

theorem step_snapshot {inner inner' : Json} (step : Step none (MemberShape.view 122) inner inner') :
    Step none (Snapshot.view maxHeight) (snapshot inner) (snapshot inner') := by
  have member : Step none (Member.view 123) _ _ :=
    @Step.field none _ (field "name" (.ofString "area")) [] (escape "shape".toList) "shape".toList
      _ _ (by decide) step
  have decl : Step none (ClassDecl.view 125) _ _ :=
    @Step.field none _ [] [] (escape "members".toList) "members".toList _ _ (by decide)
      (@Step.item none (.list (Member.view 123)) [] [] _ _ member)
  exact @Step.field none _ (field "schema" (.ofString "snapshot")) [] (escape "externals".toList)
    "externals".toList _ _ (by decide)
    (@Step.item none (.list (ClassDecl.view 125)) [] [] _ _ decl)

theorem steps : Relation.ReflTransGen (Step none (Snapshot.view maxHeight))
    (snapshot (shape "index" [])) (swapped (shape "call" [("x", some (.bool true))])) := by
  have renamed : Step none (MemberShape.view 122) (shape "index" []) (shape "call" []) :=
    @Step.kindField none 122 "kind" _ [] [] _ _ _ "index" "call" (by decide) (by decide)
      (by decide +kernel) (by decide) (by decide +kernel)
  have added : Step none (MemberShape.view 122) (shape "call" [])
      (shape "call" [("x", some (.bool true))]) :=
    @Step.add none _ (field "kind" (.ofString "call")) [] (escape ['x']) ['x'] (.bool true) rfl
      (by decide) (by decide) fun _ _ => (fits_bool true).mono (Nat.zero_le _)
  exact .tail (.tail (.single (step_snapshot renamed)) (step_snapshot added)) (.reorder (.swap ..))

theorem written_externals {inner : Json} (written : inner.Written) : (externals inner).Written := by
  have owner : (Json.object (Slots.fields
      [("name", some (.ofString "area")), ("shape", some inner)])).Written :=
    Slots.written_fields (by simp [roundTrips_string.written, written])
  have list : (Json.array [.object (Slots.fields
      [("name", some (.ofString "area")), ("shape", some inner)])]).Written :=
    .array (by simpa using owner)
  exact .array (by simpa using Slots.written_fields (by simp [list]))

theorem written_snapshot {inner : Json} (written : inner.Written) : (snapshot inner).Written :=
  Slots.written_fields (by simp [roundTrips_string.written, written_externals written])

theorem written_swapped {inner : Json} (written : inner.Written) : (swapped inner).Written :=
  Slots.written_fields (by simp [roundTrips_string.written, written_externals written])

theorem readsAlike_swapped : ∃ value,
    decode? (Snapshot.ofJson? maxHeight) (snapshot (shape "index" [])).print = some value ∧
    decode? (Snapshot.ofJson? maxHeight)
      (swapped (shape "call" [("x", some (.bool true))])).print = some value := by
  have before : (shape "index" []).Written :=
    Slots.written_fields (by simp [roundTrips_string.written])
  have after : (shape "call" [("x", some (.bool true))]).Written :=
    Slots.written_fields (by simp [roundTrips_string.written, Written.bool])
  have parsed := (written_snapshot before).parse?_print
  have parsed' := (written_swapped after).parse?_print
  have isRead : ((Snapshot.ofJson? maxHeight) (snapshot (shape "index" []))).isSome = true := by
    decide +kernel
  rcases Option.isSome_iff_exists.mp isRead with ⟨value, read⟩
  have reads : decode? (Snapshot.ofJson? maxHeight) (snapshot (shape "index" [])).print =
      some value := by
    rw [decode?, parsed, Option.bind_some, read]
  exact ⟨value, reads, documents_readAlike.1 _ _ _ _ value parsed parsed' steps reads⟩

end Unseen

/-! Where a field cannot be added. A name that is written as an object has that one field. All of a
shape is looked at, so a value that a reader would pass over elsewhere is refused there if it is too
high, if it holds a number too large for double precision, or if it holds half of a surrogate pair,
which is refused in the name of a field everywhere. -/

namespace Refused

def report (category : String) : String :=
  "\x7b\"schema\": \"report\", \"tool\": \x7b\"name\": \"tool\"\x7d, \"diagnostics\": [" ++
    "\x7b\"code\": 2515, \"file\": \"a.ts\", \"start\": 0, \"category\": " ++ category ++
    "\x7d]\x7d"

def snapshot (added : List (List Char × Json)) : Json :=
  .object <|
    field "schema" (.ofString "snapshot") ++
    field "externals" (.array [.object <|
      field "members" (.array [.object <|
        field "name" (.ofString "area") ++
        field "shape" (.object (field "kind" (.ofString "property") ++ added))])])

def nested : Nat → Json
  | 0 => .null
  | depth + 1 => .array [nested depth]

def halfPair : List Char :=
  "\\ud800".toList

theorem refuses_added :
    ((decode? DiagnosticReport.ofJson? (report "\x7b\"error\": null\x7d")).isSome = true ∧
      (decode? DiagnosticReport.ofJson?
        (report "\x7b\"error\": null, \"x\": null\x7d")).isNone = true) ∧
    ((Snapshot.ofJson? maxHeight (snapshot [])).isSome = true ∧
      (∀ value ∈ [nested 122, .number (List.replicate 400 '9'), .string halfPair],
        value.height < 128 ∧
          (Snapshot.ofJson? maxHeight (snapshot (field "x" value))).isNone = true) ∧
      (Snapshot.ofJson? maxHeight (snapshot [(halfPair, .null)])).isNone = true) := by
  refine ⟨⟨?_, ?_⟩, ?_, ?_, ?_⟩ <;> decide +kernel

end Refused

end MemberStubs
