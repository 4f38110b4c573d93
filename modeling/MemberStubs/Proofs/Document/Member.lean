import MemberStubs.Document.Member
import MemberStubs.Proofs.Json.Tagged
import MemberStubs.Proofs.Json.Tolerance

/-! Members are read as they were written. A shape is read only after all of it was looked at, so
its parts have to fit into the room that is left for them, and so has a field that is added. -/

namespace MemberStubs

open Json

theorem Visibility.roundTrips : RoundTrips ofJson? toJson :=
  roundTrips_choice fun visibility => by cases visibility <;> rfl

/-! ## Parameters -/

namespace TypeParameter

def slots (parameter : TypeParameter) : Slots :=
  [ ("name", some (.ofString parameter.name)),
    ("constraint", parameter.constraint.map .ofString),
    ("default", parameter.fallback.map .ofString) ]

theorem toJson_eq (parameter : TypeParameter) :
    parameter.toJson = .object parameter.slots.fields := by
  simp only [toJson, field_eq_fields, optionalField_eq_fields, Slots.append_fields]
  rfl

theorem roundTrips : RoundTrips ofJson? toJson := by
  refine .record (by decide) (fun _ => rfl) fun parameter =>
    ⟨parameter.slots, parameter.toJson_eq, rfl, ?_, ?_⟩
  · simp [slots, roundTrips_string.written]
  · simp [slots, Fields.required?, roundTrips_string.read, roundTrips_string.elim_map]

theorem fits (parameter : TypeParameter) : parameter.toJson.Fits 1 := by
  rw [toJson_eq]
  exact Slots.fits_fields (by simp [slots, fits_string])

end TypeParameter

namespace Parameter

def slots (parameter : Parameter) : Slots :=
  [ ("name", some (.ofString parameter.name)),
    ("type", parameter.type.map .ofString),
    ("optional", some (.bool parameter.isOptional)),
    ("rest", some (.bool parameter.isRest)) ]

theorem toJson_eq (parameter : Parameter) :
    parameter.toJson = .object parameter.slots.fields := by
  simp only [toJson, field_eq_fields, optionalField_eq_fields, Slots.append_fields]
  rfl

theorem roundTrips : RoundTrips ofJson? toJson := by
  refine .record (by decide) (fun _ => rfl) fun parameter =>
    ⟨parameter.slots, parameter.toJson_eq, rfl, ?_, ?_⟩
  · simp [slots, roundTrips_string.written, roundTrips_bool.written]
  · simp [slots, Fields.required?, roundTrips_string.read, roundTrips_string.elim_map,
      roundTrips_bool.read]

theorem fits (parameter : Parameter) : parameter.toJson.Fits 1 := by
  rw [toJson_eq]
  exact Slots.fits_fields (by simp [slots, fits_string, fits_bool])

end Parameter

/-! ## Shapes -/

namespace MemberShape

/-- The slots behind the tag. -/
def slots : MemberShape → Slots
  | .method typeParameters parameters returnType =>
      [ ("type_params", (present typeParameters).map (.ofList TypeParameter.toJson)),
        ("params", some (.ofList Parameter.toJson parameters)),
        ("return_type", returnType.map .ofString) ]
  | .property type => [("type", type.map .ofString)]
  | .getter returnType => [("return_type", returnType.map .ofString)]
  | .setter parameter => [("param", some parameter.toJson)]
  | .accessorPair returnType parameter =>
      [("return_type", returnType.map .ofString), ("param", some parameter.toJson)]
  | .unknown => []

theorem fields_eq (shape : MemberShape) : shape.fields = shape.slots.fields := by
  cases shape <;>
    simp only [fields, field_eq_fields, optionalField_eq_fields, listField_eq_fields,
      Slots.append_fields] <;>
    rfl

theorem written_slots (shape : MemberShape) :
    ∀ slot ∈ shape.slots, ∀ value, slot.2 = some value → value.Written := by
  cases shape <;>
    simp [slots, roundTrips_string.written, TypeParameter.roundTrips.list.written,
      Parameter.roundTrips.written, Parameter.roundTrips.list.written]

theorem fits_slots (shape : MemberShape) :
    ∀ slot ∈ shape.slots, ∀ value, slot.2 = some value → value.Fits 2 := by
  have text := fun value => (fits_string value).mono (Nat.zero_le 2)
  have parameter := fun value => (Parameter.fits value).mono (Nat.le_succ 1)
  cases shape <;>
    simp [slots, text, parameter, Fits.ofList TypeParameter.fits, Fits.ofList Parameter.fits]

theorem kind_not_mem_slots (shape : MemberShape) : "kind" ∉ shape.slots.map Prod.fst := by
  cases shape <;> simp [slots]

/-- Every kind of shape is read from its own slots. -/
theorem ofKind?_slots (shape : MemberShape) :
    ofKind? shape.label (.object shape.slots.fields) = some shape := by
  cases shape with
  | method typeParameters parameters returnType =>
      show (record? ["type_params", "params", "return_type"] _).bind _ = _
      refine Slots.bind_record?_fields rfl (by decide) ?_
      simp [slots, TypeParameter.roundTrips.elim_present, Parameter.roundTrips.list.read,
        roundTrips_string.elim_map]
  | property type =>
      show (record? ["type"] _).bind _ = _
      refine Slots.bind_record?_fields rfl (by decide) ?_
      simp [slots, roundTrips_string.elim_map]
  | getter returnType =>
      show (record? ["return_type"] _).bind _ = _
      refine Slots.bind_record?_fields rfl (by decide) ?_
      simp [slots, roundTrips_string.elim_map]
  | setter parameter =>
      show (record? ["param"] _).bind _ = _
      refine Slots.bind_record?_fields rfl (by decide) ?_
      simp [slots, Fields.required?, Parameter.roundTrips.read]
  | accessorPair returnType parameter =>
      show (record? ["return_type", "param"] _).bind _ = _
      refine Slots.bind_record?_fields rfl (by decide) ?_
      simp [slots, Fields.required?, Parameter.roundTrips.read, roundTrips_string.elim_map]
  | unknown => rfl

theorem roundTrips {room : Nat} (enough : 3 ≤ room) : RoundTrips (ofJson? room) toJson where
  written shape := by
    rw [toJson, fields_eq, field_eq_fields, Slots.append_fields]
    refine Slots.written_fields fun slot member value held => ?_
    rcases List.mem_cons.mp member with rfl | member
    · cases held
      exact roundTrips_string.written shape.label
    · exact shape.written_slots slot member value held
  notNull _ := nofun
  read shape := by
    rcases Nat.exists_eq_add_of_le' enough with ⟨rest, rfl⟩
    have each : ∀ slot ∈ shape.slots, ∀ value, slot.2 = some value → value.Fits (rest + 2) :=
      fun slot member value held =>
        (shape.fits_slots slot member value held).mono (Nat.le_add_left 2 rest)
    rw [ofJson?, toJson, fields_eq, Slots.tagged?_fields shape.kind_not_mem_slots each]
    exact shape.ofKind?_slots

end MemberShape

/-- A member takes one level of the room, and its shape takes three more. -/
theorem Member.roundTrips {room : Nat} (enough : 4 ≤ room) : RoundTrips (ofJson? room) toJson := by
  have shape : RoundTrips (MemberShape.ofJson? (room - 1)) MemberShape.toJson :=
    MemberShape.roundTrips (Nat.le_sub_of_add_le enough)
  refine .record (by decide) (fun _ => rfl) fun member =>
    ⟨_, by simp only [toJson, field_eq_fields, Slots.append_fields]; rfl, rfl, ?_, ?_⟩
  · simp [roundTrips_string.written, shape.written, Visibility.roundTrips.written,
      roundTrips_bool.written]
  · simp [Fields.required?, roundTrips_string.read, shape.read, Visibility.roundTrips.read,
      roundTrips_bool.read]

/-! ## What is not seen -/

theorem Visibility.tolerates : Tolerates ofJson? .single :=
  tolerates_choice.bind ofLabel?

namespace TypeParameter

def view : View :=
  .record [("name", .single), ("constraint", .single), ("default", .single)]

theorem tolerates : Tolerates ofJson? view :=
  .record (by decide) (fun _ => rfl) <|
    .required tolerates_string fun _ =>
    .optional tolerates_string fun _ =>
    .optional tolerates_string fun _ => .pure _

end TypeParameter

namespace Parameter

def view : View :=
  .record [("name", .single), ("type", .single), ("optional", .single), ("rest", .single)]

theorem tolerates : Tolerates ofJson? view :=
  .record (by decide) (fun _ => rfl) <|
    .required tolerates_string fun _ =>
    .optional tolerates_string fun _ =>
    .withDefault tolerates_bool fun _ =>
    .withDefault tolerates_bool fun _ => .pure _

end Parameter

namespace MemberShape

/-- What is known behind the tag, for each kind that has a name. -/
def kinds : List (String × List (String × View)) :=
  [ ("method",
      [ ("type_params", .list TypeParameter.view), ("params", .list Parameter.view),
        ("return_type", .single) ]),
    ("property", [("type", .single)]),
    ("get_accessor", [("return_type", .single)]),
    ("set_accessor", [("param", Parameter.view)]),
    ("accessor_pair", [("return_type", .single), ("param", Parameter.view)]) ]

def view (room : Nat) : View :=
  .tagged room "kind" kinds

theorem tolerates_ofMethod? :
    Tolerates ofMethod? (.record
      [ ("type_params", .list TypeParameter.view), ("params", .list Parameter.view),
        ("return_type", .single) ]) :=
  .record (by decide) (fun _ => rfl) <|
    .withDefault TypeParameter.tolerates.list fun _ =>
    .withDefault Parameter.tolerates.list fun _ =>
    .optional tolerates_string fun _ => .pure _

theorem tolerates_ofProperty? : Tolerates ofProperty? (.record [("type", .single)]) :=
  .record (by decide) (fun _ => rfl) <|
    .optional tolerates_string fun _ => .pure _

theorem tolerates_ofGetter? : Tolerates ofGetter? (.record [("return_type", .single)]) :=
  .record (by decide) (fun _ => rfl) <|
    .optional tolerates_string fun _ => .pure _

theorem tolerates_ofSetter? : Tolerates ofSetter? (.record [("param", Parameter.view)]) :=
  .record (by decide) (fun _ => rfl) <|
    .required Parameter.tolerates fun _ => .pure _

theorem tolerates_ofAccessorPair? :
    Tolerates ofAccessorPair?
      (.record [("return_type", .single), ("param", Parameter.view)]) :=
  .record (by decide) (fun _ => rfl) <|
    .optional tolerates_string fun _ =>
    .required Parameter.tolerates fun _ => .pure _

theorem tolerates_ofUnknown? : Tolerates ofUnknown? (.record []) := by
  intro around json json' shape step reads
  cases step with
  | @item _ _ front => cases front <;> cases reads
  | _ => exact reads

theorem ofKind?_of_unknown {kind : String} (unknown : kinds.lookup kind = none) :
    ofKind? kind = ofUnknown? := by
  funext json
  unfold ofKind?
  split <;> first | rfl | cases unknown

theorem tolerates_ofKind? (kind : String) :
    Tolerates (ofKind? kind) (.record ((kinds.lookup kind).getD [])) := by
  cases known : kinds.lookup kind with
  | none =>
      rw [ofKind?_of_unknown known]
      exact tolerates_ofUnknown?
  | some parts =>
      rcases List.lookup_eq_some_iff.mp known with ⟨before, after, split, _⟩
      have member : (kind, parts) ∈ kinds :=
        split ▸ List.mem_append_right _ (List.mem_cons_self ..)
      simp only [kinds, List.mem_cons, Prod.mk.injEq, List.not_mem_nil, or_false] at member
      rcases member with ⟨rfl, rfl⟩ | ⟨rfl, rfl⟩ | ⟨rfl, rfl⟩ | ⟨rfl, rfl⟩ | ⟨rfl, rfl⟩
      · exact tolerates_ofMethod?
      · exact tolerates_ofProperty?
      · exact tolerates_ofGetter?
      · exact tolerates_ofSetter?
      · exact tolerates_ofAccessorPair?

theorem tolerates (room : Nat) : Tolerates (ofJson? room) (view room) :=
  .tagged (fun _ => rfl) tolerates_ofKind? fun _ _ unknown unknown' =>
    (ofKind?_of_unknown unknown).trans (ofKind?_of_unknown unknown').symm

end MemberShape

namespace Member

def view (room : Nat) : View :=
  .record
    [ ("name", .single), ("shape", MemberShape.view (room - 1)), ("visibility", .single),
      ("abstract", .single), ("readonly", .single), ("optional", .single) ]

theorem tolerates (room : Nat) : Tolerates (ofJson? room) (view room) :=
  .record (by simp) (fun _ => rfl) <|
    .required tolerates_string fun _ =>
    .required (MemberShape.tolerates (room - 1)) fun _ =>
    .withDefault Visibility.tolerates fun _ =>
    .withDefault tolerates_bool fun _ =>
    .withDefault tolerates_bool fun _ =>
    .withDefault tolerates_bool fun _ => .pure _

end Member

end MemberStubs
