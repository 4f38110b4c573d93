import MemberStubs.Document.Edit
import MemberStubs.Proofs.Document.Diagnostic

/-! Edits, and layouts of them, are read as they were written. -/

namespace MemberStubs

open Json

theorem ClassKey.roundTrips : RoundTrips ofJson? toJson := by
  refine .record (by decide) (fun _ => rfl) fun key =>
    ⟨_, by simp only [toJson, field_eq_fields, Slots.append_fields]; rfl, rfl, ?_, ?_⟩
  · simp [roundTrips_path.written, roundTrips_uint64.written]
  · simp [Fields.required?, roundTrips_path.read, roundTrips_uint64.read]

theorem StubKind.roundTrips : RoundTrips ofJson? fun kind => .ofString kind.label :=
  roundTrips_choice fun kind => by cases kind <;> rfl

theorem Stub.roundTrips : RoundTrips ofJson? toJson := by
  refine .record (by decide) (fun _ => rfl) fun stub =>
    ⟨_, by simp only [toJson, field_eq_fields, Slots.append_fields]; rfl, rfl, ?_, ?_⟩
  · simp [roundTrips_string.written]
  · simp [Fields.required?, roundTrips_string.read, StubKind.roundTrips.read]

theorem SkippedMember.roundTrips : RoundTrips ofJson? toJson := by
  refine .record (by decide) (fun _ => rfl) fun member =>
    ⟨_, by simp only [toJson, field_eq_fields, Slots.append_fields]; rfl, rfl, ?_, ?_⟩
  · simp [roundTrips_string.written]
  · simp [Fields.required?, roundTrips_string.read]

theorem ClassEdit.roundTrips : RoundTrips ofJson? toJson := by
  refine .record (by decide) (fun _ => rfl) fun edit =>
    ⟨_,
      by
        simp only [toJson, field_eq_fields, optionalField_eq_fields, listField_eq_fields,
          Slots.append_fields]
        rfl,
      rfl, ?_, ?_⟩
  · simp [roundTrips_string.written, ClassKey.roundTrips.written, roundTrips_uint64.written,
      Stub.roundTrips.list.written, SkippedMember.roundTrips.list.written,
      DiagnosticRef.roundTrips.list.written]
  · simp [Fields.required?, roundTrips_string.read, ClassKey.roundTrips.read,
      roundTrips_string.elim_map, roundTrips_uint64.read, Stub.roundTrips.list.read,
      SkippedMember.roundTrips.elim_present, DiagnosticRef.roundTrips.elim_present]

theorem FileEdit.roundTrips : RoundTrips ofJson? toJson := by
  refine .record (by decide) (fun _ => rfl) fun edit =>
    ⟨_,
      by
        simp only [toJson, field_eq_fields, optionalField_eq_fields, Slots.append_fields]
        rfl,
      rfl, ?_, ?_⟩
  · simp [roundTrips_path.written, roundTrips_string.written, ClassEdit.roundTrips.list.written]
  · simp [Fields.required?, roundTrips_path.read, roundTrips_string.elim_map,
      ClassEdit.roundTrips.list.read]

theorem EditSet.roundTrips : RoundTrips ofJson? toJson := by
  refine .record (by decide) (fun _ => rfl) fun edits =>
    ⟨_, by simp only [toJson, field_eq_fields, Slots.append_fields]; rfl, rfl, ?_, ?_⟩
  · simp [roundTrips_string.written, FileEdit.roundTrips.list.written]
  · simp [Fields.required?, roundTrips_string.read, FileEdit.roundTrips.list.read]

theorem Layout.roundTrips : RoundTrips ofJson? toJson := by
  refine .record (by decide) (fun _ => rfl) fun layout =>
    ⟨_, by simp only [toJson, field_eq_fields, Slots.append_fields]; rfl, rfl, ?_, ?_⟩
  · simp [roundTrips_string.written]
  · simp [Fields.required?, roundTrips_string.read]

/-! ## What is not seen -/

namespace ClassKey

def view : View :=
  .record [("file", .single), ("start", .single)]

theorem tolerates : Tolerates ofJson? view :=
  .record (by decide) (fun _ => rfl) <|
    .required tolerates_path fun _ =>
    .required tolerates_uint64 fun _ => .pure _

end ClassKey

theorem StubKind.tolerates : Tolerates ofJson? .single :=
  tolerates_choice.bind ofLabel?

namespace Stub

def view : View :=
  .record [("name", .single), ("kind", .single), ("text", .single)]

theorem tolerates : Tolerates ofJson? view :=
  .record (by decide) (fun _ => rfl) <|
    .required tolerates_string fun _ =>
    .required StubKind.tolerates fun _ =>
    .required tolerates_string fun _ => .pure _

end Stub

namespace SkippedMember

def view : View :=
  .record [("name", .single), ("reason", .single)]

theorem tolerates : Tolerates ofJson? view :=
  .record (by decide) (fun _ => rfl) <|
    .required tolerates_string fun _ =>
    .required tolerates_string fun _ => .pure _

end SkippedMember

namespace ClassEdit

def view : View :=
  .record
    [ ("id", .single), ("class", ClassKey.view), ("class_name", .single), ("anchor", .single),
      ("stubs", .list Stub.view), ("skipped", .list SkippedMember.view),
      ("triggers", .list DiagnosticRef.view) ]

theorem tolerates : Tolerates ofJson? view :=
  .record (by decide) (fun _ => rfl) <|
    .required tolerates_string fun _ =>
    .required ClassKey.tolerates fun _ =>
    .optional tolerates_string fun _ =>
    .required tolerates_uint64 fun _ =>
    .required Stub.tolerates.list fun _ =>
    .withDefault SkippedMember.tolerates.list fun _ =>
    .withDefault DiagnosticRef.tolerates.list fun _ => .pure _

end ClassEdit

namespace FileEdit

def view : View :=
  .record [("path", .single), ("sha256", .single), ("classes", .list ClassEdit.view)]

theorem tolerates : Tolerates ofJson? view :=
  .record (by decide) (fun _ => rfl) <|
    .required tolerates_path fun _ =>
    .optional tolerates_string fun _ =>
    .required ClassEdit.tolerates.list fun _ => .pure _

end FileEdit

namespace EditSet

def view : View :=
  .record [("schema", .single), ("files", .list FileEdit.view)]

theorem tolerates : Tolerates ofJson? view :=
  .record (by decide) (fun _ => rfl) <|
    .required tolerates_string fun _ =>
    .withDefault FileEdit.tolerates.list fun _ => .pure _

end EditSet

end MemberStubs
