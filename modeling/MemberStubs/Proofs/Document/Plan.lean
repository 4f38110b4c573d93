import MemberStubs.Document.Plan
import MemberStubs.Proofs.Document.Edit

/-! Plans are read as they were written. -/

namespace MemberStubs

open Json

theorem StubPolicy.roundTrips : RoundTrips ofJson? toJson :=
  roundTrips_choice fun policy => by cases policy <;> rfl

theorem PlanInput.roundTrips : RoundTrips ofJson? toJson := by
  refine .record (by decide) (fun _ => rfl) fun input =>
    ⟨_,
      by
        simp only [toJson, field_eq_fields, optionalField_eq_fields, Slots.append_fields]
        rfl,
      rfl, ?_, ?_⟩
  · simp [roundTrips_string.written]
  · simp [Fields.required?, roundTrips_string.read, roundTrips_string.elim_map]

theorem PlanPolicy.roundTrips : RoundTrips ofJson? toJson := by
  refine .record (by decide) (fun _ => rfl) fun policy =>
    ⟨_,
      by
        simp only [toJson, field_eq_fields, optionalField_eq_fields, Slots.append_fields]
        rfl,
      rfl, ?_, ?_⟩
  · simp [StubPolicy.roundTrips.written, roundTrips_bool.written, roundTrips_uint64.written]
  · simp [StubPolicy.roundTrips.read, roundTrips_bool.read, roundTrips_uint64.elim_map]

theorem PlanSummary.roundTrips : RoundTrips ofJson? toJson := by
  refine .record (by decide) (fun _ => rfl) fun summary =>
    ⟨_,
      by
        simp only [toJson, field_eq_fields, optionalField_eq_fields, Slots.append_fields]
        rfl,
      rfl, ?_, ?_⟩
  · simp [roundTrips_uint64.written]
  · simp [Fields.required?, roundTrips_uint64.read, roundTrips_uint64.elim_map]

theorem UnrepairedClass.roundTrips : RoundTrips ofJson? toJson := by
  refine .record (by decide) (fun _ => rfl) fun failure =>
    ⟨_,
      by
        simp only [toJson, fields, field_eq_fields, optionalField_eq_fields,
          Slots.append_fields]
        rfl,
      rfl, ?_, ?_⟩
  · simp [DiagnosticRef.roundTrips.written, roundTrips_string.written]
  · simp [Fields.required?, DiagnosticRef.roundTrips.read, roundTrips_string.read,
      roundTrips_string.elim_map]

theorem RepairPlan.roundTrips : RoundTrips ofJson? toJson := by
  refine .record (by decide) (fun _ => rfl) fun plan =>
    ⟨_,
      by
        simp only [toJson, field_eq_fields, optionalField_eq_fields, Slots.append_fields]
        rfl,
      rfl, ?_, ?_⟩
  · simp [roundTrips_string.written, Tool.roundTrips.written, PlanInput.roundTrips.list.written,
      PlanPolicy.roundTrips.written, EditSet.roundTrips.written,
      UnrepairedClass.roundTrips.list.written, roundTrips_bool.written,
      PlanSummary.roundTrips.written]
  · simp [Fields.required?, roundTrips_string.read, Tool.roundTrips.read,
      PlanInput.roundTrips.list.read, PlanPolicy.roundTrips.read, EditSet.roundTrips.read,
      UnrepairedClass.roundTrips.list.read, roundTrips_bool.read, roundTrips_string.elim_map,
      PlanSummary.roundTrips.read]

/-! ## What is not seen -/

theorem StubPolicy.tolerates : Tolerates ofJson? .single :=
  tolerates_choice.bind ofLabel?

namespace PlanInput

def view : View :=
  .record [("path", .single), ("schema", .single), ("tool", .single)]

theorem tolerates : Tolerates ofJson? view :=
  .record (by decide) (fun _ => rfl) <|
    .required tolerates_string fun _ =>
    .optional tolerates_string fun _ =>
    .optional tolerates_string fun _ => .pure _

end PlanInput

namespace PlanPolicy

def view : View :=
  .record
    [ ("stub_policy", .single), ("require_clean_hashes", .single), ("max_files", .single),
      ("max_classes", .single) ]

theorem tolerates : Tolerates ofJson? view :=
  .record (by decide) (fun _ => rfl) <|
    .withDefault StubPolicy.tolerates fun _ =>
    .withDefault tolerates_bool fun _ =>
    .optional tolerates_uint64 fun _ =>
    .optional tolerates_uint64 fun _ => .pure _

end PlanPolicy

namespace PlanSummary

def view : View :=
  .record
    [ ("diagnostics_total", .single), ("diagnostics_ignored", .single), ("files_touched", .single),
      ("classes_repaired", .single), ("stubs_total", .single), ("members_skipped", .single),
      ("classes_failed", .single), ("patch_bytes", .single) ]

theorem tolerates : Tolerates ofJson? view :=
  .record (by decide) (fun _ => rfl) <|
    .required tolerates_uint64 fun _ =>
    .required tolerates_uint64 fun _ =>
    .required tolerates_uint64 fun _ =>
    .required tolerates_uint64 fun _ =>
    .required tolerates_uint64 fun _ =>
    .required tolerates_uint64 fun _ =>
    .required tolerates_uint64 fun _ =>
    .optional tolerates_uint64 fun _ => .pure _

end PlanSummary

namespace UnrepairedClass

def view : View :=
  .record
    [ ("diagnostic", DiagnosticRef.view), ("class_name", .single), ("reason_token", .single),
      ("reason", .single) ]

theorem tolerates : Tolerates ofJson? view :=
  .record (by decide) (fun _ => rfl) <|
    .required DiagnosticRef.tolerates fun _ =>
    .optional tolerates_string fun _ =>
    .required tolerates_string fun _ =>
    .required tolerates_string fun _ => .pure _

end UnrepairedClass

namespace RepairPlan

def view : View :=
  .record
    [ ("schema", .single), ("tool", Tool.view), ("inputs", .list PlanInput.view),
      ("policy", PlanPolicy.view), ("edits", EditSet.view),
      ("failures", .list UnrepairedClass.view), ("blocked", .single),
      ("blocked_reason", .single), ("blocked_reason_token", .single),
      ("summary", PlanSummary.view) ]

theorem tolerates : Tolerates ofJson? view :=
  .record (by decide) (fun _ => rfl) <|
    .required tolerates_string fun _ =>
    .required Tool.tolerates fun _ =>
    .withDefault PlanInput.tolerates.list fun _ =>
    .required PlanPolicy.tolerates fun _ =>
    .required EditSet.tolerates fun _ =>
    .withDefault UnrepairedClass.tolerates.list fun _ =>
    .withDefault tolerates_bool fun _ =>
    .optional tolerates_string fun _ =>
    .optional tolerates_string fun _ =>
    .required PlanSummary.tolerates fun _ => .pure _

end RepairPlan

end MemberStubs
