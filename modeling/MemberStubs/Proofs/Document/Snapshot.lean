import MemberStubs.Document.Snapshot
import MemberStubs.Proofs.Document.Member

/-! Snapshots are read as they were written, as far as there is room for what they hold. A list of
parts takes two levels of the room: one for the whole and one for the list. -/

namespace MemberStubs

open Json

theorem Span.roundTrips : RoundTrips ofJson? toJson := by
  refine .record (by decide) (fun _ => rfl) fun span =>
    ⟨_, by simp only [toJson, field_eq_fields, Slots.append_fields]; rfl, rfl, ?_, ?_⟩
  · simp [roundTrips_uint64.written]
  · simp [Fields.required?, roundTrips_uint64.read]

theorem ClassForm.roundTrips : RoundTrips ofJson? fun form => .ofString form.label :=
  roundTrips_choice fun form => by cases form <;> rfl

theorem TypeRef.roundTrips : RoundTrips ofJson? toJson := by
  refine .record (by decide) (fun _ => rfl) fun type =>
    ⟨_,
      by
        simp only [toJson, field_eq_fields, listField_eq_fields, Slots.append_fields]
        rfl,
      rfl, ?_, ?_⟩
  · simp [roundTrips_string.written, roundTrips_string.list.written]
  · simp [Fields.required?, roundTrips_string.read, roundTrips_string.elim_present]

theorem ClassDecl.roundTrips {room : Nat} (enough : 6 ≤ room) :
    RoundTrips (ofJson? room) toJson := by
  have member : RoundTrips (Member.ofJson? (room - 2)) Member.toJson :=
    Member.roundTrips (Nat.le_sub_of_add_le enough)
  refine .record (by decide) (fun _ => rfl) fun decl =>
    ⟨_,
      by
        simp only [toJson, field_eq_fields, optionalField_eq_fields, listField_eq_fields,
          Slots.append_fields]
        rfl,
      rfl, ?_, ?_⟩
  · simp [roundTrips_string.written, roundTrips_bool.written, Span.roundTrips.written,
      roundTrips_uint64.written, TypeParameter.roundTrips.list.written,
      TypeRef.roundTrips.list.written, member.list.written]
  · simp [roundTrips_string.elim_map, ClassForm.roundTrips.read, roundTrips_bool.read,
      Span.roundTrips.read, roundTrips_uint64.read, TypeParameter.roundTrips.elim_present,
      TypeRef.roundTrips.elim_present, member.list.read]

theorem SourceFile.roundTrips {room : Nat} (enough : 8 ≤ room) :
    RoundTrips (ofJson? room) toJson := by
  have decl : RoundTrips (ClassDecl.ofJson? (room - 2)) ClassDecl.toJson :=
    ClassDecl.roundTrips (Nat.le_sub_of_add_le enough)
  refine .record (by decide) (fun _ => rfl) fun file =>
    ⟨_, by simp only [toJson, field_eq_fields, Slots.append_fields]; rfl, rfl, ?_, ?_⟩
  · simp [roundTrips_path.written, decl.list.written]
  · simp [Fields.required?, roundTrips_path.read, decl.list.read]

theorem Snapshot.roundTrips {room : Nat} (enough : 10 ≤ room) :
    RoundTrips (ofJson? room) toJson := by
  have file : RoundTrips (SourceFile.ofJson? (room - 2)) SourceFile.toJson :=
    SourceFile.roundTrips (Nat.le_sub_of_add_le enough)
  have external : RoundTrips (ClassDecl.ofJson? (room - 2)) ClassDecl.toJson :=
    ClassDecl.roundTrips (Nat.le_sub_of_add_le (Nat.le_trans (by decide) enough))
  refine .record (by decide) (fun _ => rfl) fun snapshot =>
    ⟨_, by simp only [toJson, field_eq_fields, Slots.append_fields]; rfl, rfl, ?_, ?_⟩
  · simp [roundTrips_string.written, file.list.written, external.list.written]
  · simp [Fields.required?, roundTrips_string.read, file.list.read, external.list.read]

/-! ## What is not seen -/

namespace Span

def view : View :=
  .record [("start", .single), ("end", .single)]

theorem tolerates : Tolerates ofJson? view :=
  .record (by decide) (fun _ => rfl) <|
    .required tolerates_uint64 fun _ =>
    .required tolerates_uint64 fun _ => .pure _

end Span

theorem ClassForm.tolerates : Tolerates ofJson? .single :=
  tolerates_choice.bind ofLabel?

namespace TypeRef

def view : View :=
  .record [("name", .single), ("type_args", .list .single)]

theorem tolerates : Tolerates ofJson? view :=
  .record (by decide) (fun _ => rfl) <|
    .required tolerates_string fun _ =>
    .withDefault tolerates_string.list fun _ => .pure _

end TypeRef

namespace ClassDecl

def view (room : Nat) : View :=
  .record
    [ ("name", .single), ("form", .single), ("abstract", .single), ("span", Span.view),
      ("name_span", Span.view), ("open_brace", .single),
      ("type_params", .list TypeParameter.view), ("extends", .list TypeRef.view),
      ("members", .list (Member.view (room - 2))) ]

theorem tolerates (room : Nat) : Tolerates (ofJson? room) (view room) :=
  .record (by simp) (fun _ => rfl) <|
    .optional tolerates_string fun _ =>
    .withDefault ClassForm.tolerates fun _ =>
    .withDefault tolerates_bool fun _ =>
    .withDefault Span.tolerates fun _ =>
    .withDefault Span.tolerates fun _ =>
    .withDefault tolerates_uint64 fun _ =>
    .withDefault TypeParameter.tolerates.list fun _ =>
    .withDefault TypeRef.tolerates.list fun _ =>
    .withDefault (Member.tolerates (room - 2)).list fun _ => .pure _

end ClassDecl

namespace SourceFile

def view (room : Nat) : View :=
  .record [("path", .single), ("classes", .list (ClassDecl.view (room - 2)))]

theorem tolerates (room : Nat) : Tolerates (ofJson? room) (view room) :=
  .record (by simp) (fun _ => rfl) <|
    .required tolerates_path fun _ =>
    .withDefault (ClassDecl.tolerates (room - 2)).list fun _ => .pure _

end SourceFile

namespace Snapshot

def view (room : Nat) : View :=
  .record
    [ ("schema", .single), ("files", .list (SourceFile.view (room - 2))),
      ("externals", .list (ClassDecl.view (room - 2))) ]

theorem tolerates (room : Nat) : Tolerates (ofJson? room) (view room) :=
  .record (by simp) (fun _ => rfl) <|
    .required tolerates_string fun _ =>
    .withDefault (SourceFile.tolerates (room - 2)).list fun _ =>
    .withDefault (ClassDecl.tolerates (room - 2)).list fun _ => .pure _

end Snapshot

end MemberStubs
