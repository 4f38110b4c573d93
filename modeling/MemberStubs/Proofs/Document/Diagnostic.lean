import MemberStubs.Document.Diagnostic
import MemberStubs.Proofs.Json.Record
import MemberStubs.Proofs.Json.Tolerance

/-! Diagnostics and reports of them are read as they were written, and alike from documents that
differ in what is not seen. -/

namespace MemberStubs

open Json

theorem Tool.roundTrips : RoundTrips ofJson? toJson := by
  refine .record (by decide) (fun _ => rfl) fun tool =>
    ⟨_,
      by
        simp only [toJson, field_eq_fields, optionalField_eq_fields, Slots.append_fields]
        rfl,
      rfl, ?_, ?_⟩
  · simp [roundTrips_string.written]
  · simp [Fields.required?, roundTrips_string.read, roundTrips_string.elim_map]

theorem DiagnosticRef.roundTrips : RoundTrips ofJson? toJson := by
  refine .record (by decide) (fun _ => rfl) fun reference =>
    ⟨_, by simp only [toJson, field_eq_fields, Slots.append_fields]; rfl, rfl, ?_, ?_⟩
  · simp [roundTrips_uint32.written, roundTrips_path.written, roundTrips_uint64.written]
  · simp [Fields.required?, roundTrips_uint32.read, roundTrips_path.read, roundTrips_uint64.read]

theorem Severity.roundTrips : RoundTrips ofJson? fun severity => .ofString severity.label :=
  roundTrips_choice fun severity => by cases severity <;> rfl

theorem Diagnostic.roundTrips : RoundTrips ofJson? toJson := by
  refine .record (by decide) (fun _ => rfl) fun diagnostic =>
    ⟨_,
      by
        simp only [toJson, field_eq_fields, optionalField_eq_fields, Slots.append_fields]
        rfl,
      rfl, ?_, ?_⟩
  · simp [roundTrips_uint32.written, roundTrips_path.written, roundTrips_uint64.written,
      roundTrips_string.written]
  · simp [Fields.required?, roundTrips_uint32.read, roundTrips_path.read, roundTrips_uint64.read,
      Severity.roundTrips.read, roundTrips_string.elim_map]

theorem DiagnosticReport.roundTrips : RoundTrips ofJson? toJson := by
  refine .record (by decide) (fun _ => rfl) fun report =>
    ⟨_, by simp only [toJson, field_eq_fields, Slots.append_fields]; rfl, rfl, ?_, ?_⟩
  · simp [roundTrips_string.written, Tool.roundTrips.written, Diagnostic.roundTrips.list.written]
  · simp [Fields.required?, roundTrips_string.read, Tool.roundTrips.read,
      Diagnostic.roundTrips.list.read]

/-! ## What is not seen -/

theorem Severity.tolerates : Tolerates ofJson? .single :=
  tolerates_choice.bind ofLabel?

namespace Tool

def view : View :=
  .record [("name", .single), ("version", .single)]

theorem tolerates : Tolerates ofJson? view :=
  .record (by decide) (fun _ => rfl) <|
    .required tolerates_string fun _ =>
    .optional tolerates_string fun _ => .pure _

end Tool

namespace DiagnosticRef

def view : View :=
  .record [("code", .single), ("file", .single), ("start", .single)]

theorem tolerates : Tolerates ofJson? view :=
  .record (by decide) (fun _ => rfl) <|
    .required tolerates_uint32 fun _ =>
    .required tolerates_path fun _ =>
    .required tolerates_uint64 fun _ => .pure _

end DiagnosticRef

namespace Diagnostic

def view : View :=
  .record
    [ ("code", .single), ("file", .single), ("start", .single), ("length", .single),
      ("category", .single), ("message", .single) ]

theorem tolerates : Tolerates ofJson? view :=
  .record (by decide) (fun _ => rfl) <|
    .required tolerates_uint32 fun _ =>
    .required tolerates_path fun _ =>
    .required tolerates_uint64 fun _ =>
    .withDefault tolerates_uint64 fun _ =>
    .withDefault Severity.tolerates fun _ =>
    .optional tolerates_string fun _ => .pure _

end Diagnostic

namespace DiagnosticReport

def view : View :=
  .record [("schema", .single), ("tool", Tool.view), ("diagnostics", .list Diagnostic.view)]

theorem tolerates : Tolerates ofJson? view :=
  .record (by decide) (fun _ => rfl) <|
    .required tolerates_string fun _ =>
    .required Tool.tolerates fun _ =>
    .withDefault Diagnostic.tolerates.list fun _ => .pure _

end DiagnosticReport

end MemberStubs
