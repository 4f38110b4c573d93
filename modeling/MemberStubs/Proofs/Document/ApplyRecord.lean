import MemberStubs.Document.ApplyRecord
import MemberStubs.Proofs.Document.Diagnostic

/-! Records of an application are read as they were written, if the moment at which it ended is. -/

namespace MemberStubs

open Json

theorem ApplyStatus.roundTrips : RoundTrips ofJson? fun status => .ofString status.label :=
  roundTrips_choice fun status => by cases status <;> rfl

theorem FileResult.roundTrips : RoundTrips ofJson? toJson := by
  refine .record (by decide) (fun _ => rfl) fun result =>
    ⟨_,
      by
        simp only [toJson, field_eq_fields, optionalField_eq_fields, Slots.append_fields]
        rfl,
      rfl, ?_, ?_⟩
  · simp [roundTrips_string.written, roundTrips_uint64.written]
  · simp [Fields.required?, roundTrips_string.read, ApplyStatus.roundTrips.read,
      roundTrips_string.elim_map, roundTrips_uint64.read]

theorem HashMismatch.roundTrips : RoundTrips ofJson? toJson := by
  refine .record (by decide) (fun _ => rfl) fun mismatch =>
    ⟨_, by simp only [toJson, field_eq_fields, Slots.append_fields]; rfl, rfl, ?_, ?_⟩
  · simp [roundTrips_string.written]
  · simp [Fields.required?, roundTrips_string.read]

theorem Preconditions.roundTrips : RoundTrips ofJson? toJson := by
  refine .record (by decide) (fun _ => rfl) fun preconditions =>
    ⟨_, by simp only [toJson, field_eq_fields, Slots.append_fields]; rfl, rfl, ?_, ?_⟩
  · simp [roundTrips_bool.written, HashMismatch.roundTrips.list.written]
  · simp [Fields.required?, roundTrips_bool.read, HashMismatch.roundTrips.list.read]

theorem ApplySummary.roundTrips : RoundTrips ofJson? toJson := by
  refine .record (by decide) (fun _ => rfl) fun summary =>
    ⟨_, by simp only [toJson, field_eq_fields, Slots.append_fields]; rfl, rfl, ?_, ?_⟩
  · simp [roundTrips_uint64.written]
  · simp [Fields.required?, roundTrips_uint64.read]

/-- The text of the moment, if there is one, is read as that moment. -/
def ApplyRecord.EndIsRead (record : ApplyRecord) : Prop :=
  ∀ time, record.endedAt = some time → Timestamp.parse? time.text = some time

namespace ApplyRecord

def slots (record : ApplyRecord) : Slots :=
  [ ("schema", some (.ofString record.schema)),
    ("tool", some record.tool.toJson),
    ("applied", some (.bool record.applied)),
    ("preconditions", some record.preconditions.toJson),
    ("results", some (.ofList FileResult.toJson record.results)),
    ("summary", some record.summary.toJson),
    ("ended_at", record.endedAt.map Timestamp.toJson) ]

theorem toJson_eq (record : ApplyRecord) : record.toJson = .object record.slots.fields := by
  simp only [toJson, field_eq_fields, optionalField_eq_fields, Slots.append_fields]
  rfl

theorem written (record : ApplyRecord) : record.toJson.Written := by
  rw [toJson_eq]
  refine Slots.written_fields ?_
  simp [slots, roundTrips_string.written, Tool.roundTrips.written, roundTrips_bool.written,
    Preconditions.roundTrips.written, FileResult.roundTrips.list.written,
    ApplySummary.roundTrips.written, Timestamp.toJson]

theorem elim_endedAt {record : ApplyRecord} (isRead : record.EndIsRead) :
    (record.endedAt.map Timestamp.toJson).elim (some none) (nullable? Timestamp.ofJson?) =
      some record.endedAt := by
  rcases ended : record.endedAt with _ | time
  · rfl
  · have notNull : time.toJson ≠ .null := roundTrips_string.notNull time.text
    have reads : Timestamp.ofJson? time.toJson = some time := by
      rw [Timestamp.toJson, Timestamp.ofJson?, roundTrips_string.read, Option.bind_some,
        isRead time ended]
    rw [Option.map_some, Option.elim_some, nullable?_of_read notNull reads]

theorem ofJson?_toJson {record : ApplyRecord} (isRead : record.EndIsRead) :
    ofJson? record.toJson = some record := by
  rw [toJson_eq]
  show (record? ["schema", "tool", "applied", "preconditions", "results", "summary", "ended_at"]
    _).bind _ = _
  refine Slots.bind_record?_fields rfl (by decide) ?_
  simp [slots, Fields.required?, roundTrips_string.read, Tool.roundTrips.read,
    roundTrips_bool.read, Preconditions.roundTrips.read, FileResult.roundTrips.list.read,
    ApplySummary.roundTrips.read, elim_endedAt isRead]

end ApplyRecord

/-! ## What is not seen -/

theorem Timestamp.tolerates : Tolerates ofJson? .single :=
  tolerates_string.bind parse?

theorem ApplyStatus.tolerates : Tolerates ofJson? .single :=
  tolerates_choice.bind ofLabel?

namespace FileResult

def view : View :=
  .record
    [ ("path", .single), ("status", .single), ("message", .single), ("classes", .single),
      ("stubs_inserted", .single), ("sha256_before", .single), ("sha256_after", .single) ]

theorem tolerates : Tolerates ofJson? view :=
  .record (by decide) (fun _ => rfl) <|
    .required tolerates_string fun _ =>
    .required ApplyStatus.tolerates fun _ =>
    .optional tolerates_string fun _ =>
    .required tolerates_uint64 fun _ =>
    .required tolerates_uint64 fun _ =>
    .optional tolerates_string fun _ =>
    .optional tolerates_string fun _ => .pure _

end FileResult

namespace HashMismatch

def view : View :=
  .record [("path", .single), ("expected", .single), ("actual", .single)]

theorem tolerates : Tolerates ofJson? view :=
  .record (by decide) (fun _ => rfl) <|
    .required tolerates_string fun _ =>
    .required tolerates_string fun _ =>
    .required tolerates_string fun _ => .pure _

end HashMismatch

namespace Preconditions

def view : View :=
  .record [("verified", .single), ("mismatches", .list HashMismatch.view)]

theorem tolerates : Tolerates ofJson? view :=
  .record (by decide) (fun _ => rfl) <|
    .required tolerates_bool fun _ =>
    .withDefault HashMismatch.tolerates.list fun _ => .pure _

end Preconditions

namespace ApplySummary

def view : View :=
  .record
    [ ("attempted", .single), ("applied", .single), ("blocked", .single), ("failed", .single),
      ("files_modified", .single) ]

theorem tolerates : Tolerates ofJson? view :=
  .record (by decide) (fun _ => rfl) <|
    .required tolerates_uint64 fun _ =>
    .required tolerates_uint64 fun _ =>
    .required tolerates_uint64 fun _ =>
    .required tolerates_uint64 fun _ =>
    .required tolerates_uint64 fun _ => .pure _

end ApplySummary

namespace ApplyRecord

def view : View :=
  .record
    [ ("schema", .single), ("tool", Tool.view), ("applied", .single),
      ("preconditions", Preconditions.view), ("results", .list FileResult.view),
      ("summary", ApplySummary.view), ("ended_at", .single) ]

theorem tolerates : Tolerates ofJson? view :=
  .record (by decide) (fun _ => rfl) <|
    .required tolerates_string fun _ =>
    .required Tool.tolerates fun _ =>
    .required tolerates_bool fun _ =>
    .withDefault Preconditions.tolerates fun _ =>
    .withDefault FileResult.tolerates.list fun _ =>
    .required ApplySummary.tolerates fun _ =>
    .optional Timestamp.tolerates fun _ => .pure _

end ApplyRecord

end MemberStubs
