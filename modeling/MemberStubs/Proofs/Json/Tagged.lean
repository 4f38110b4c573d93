import MemberStubs.Proofs.Json.Record

/-! Tagged records that are written and read back. Before its tag is looked at, all of a tagged record
has to be meaningful and must not be higher than there is room for. -/

namespace MemberStubs.Json

/-- A document without a fault inside that a tagged record may hold in a given room. -/
structure Fits (room : Nat) (json : Json) : Prop where
  meaningful : json.isMeaningful = true
  height : json.height ≤ room

theorem Fits.mono {room larger : Nat} {json : Json} (fits : json.Fits room)
    (atMost : room ≤ larger) : json.Fits larger :=
  ⟨fits.meaningful, fits.height.trans atMost⟩

theorem fits_bool (value : Bool) : (bool value).Fits 0 :=
  ⟨rfl, Nat.le_refl 0⟩

theorem fits_string (text : String) : (ofString text).Fits 0 where
  meaningful := by rw [ofString, isMeaningful, unescape?_escape, Option.isSome_some]
  height := Nat.le_refl 0

theorem fits_array_iff {room : Nat} {items : List Json} :
    (Json.array items).Fits room ↔ 0 < room ∧ ∀ item ∈ items, item.Fits (room - 1) := by
  have both : ∀ below, (areMeaningful items = true ∧ heightOfItems items ≤ below) ↔
      ∀ item ∈ items, item.Fits below := by
    intro below
    induction items with
    | nil => simp [areMeaningful, heightOfItems]
    | cons item items induction =>
        rw [List.forall_mem_cons, ← induction, areMeaningful, heightOfItems, Bool.and_eq_true,
          Nat.max_le]
        exact ⟨fun ⟨⟨first, later⟩, high, higher⟩ => ⟨⟨first, high⟩, later, higher⟩,
          fun ⟨⟨first, high⟩, later, higher⟩ => ⟨⟨first, later⟩, high, higher⟩⟩
  rw [← both]
  constructor
  · rintro ⟨meaningful, height⟩
    rw [Json.height] at height
    exact ⟨by omega, meaningful, by omega⟩
  · rintro ⟨_, meaningful, height⟩
    exact ⟨meaningful, by rw [Json.height]; omega⟩

theorem fits_object_iff {room : Nat} {fields : List (List Char × Json)} :
    (Json.object fields).Fits room ↔
      0 < room ∧ ∀ field ∈ fields,
        (unescape? field.1).isSome = true ∧ field.2.Fits (room - 1) := by
  have both : ∀ below,
      (areFieldsMeaningful fields = true ∧ heightOfFields fields ≤ below) ↔
        ∀ field ∈ fields, (unescape? field.1).isSome = true ∧ field.2.Fits below := by
    intro below
    induction fields with
    | nil => simp [areFieldsMeaningful, heightOfFields]
    | cons field fields induction =>
        rcases field with ⟨key, value⟩
        rw [List.forall_mem_cons, ← induction, areFieldsMeaningful, heightOfFields,
          Bool.and_eq_true, Bool.and_eq_true, Nat.max_le]
        exact ⟨fun ⟨⟨⟨named, first⟩, later⟩, high, higher⟩ =>
            ⟨⟨named, first, high⟩, later, higher⟩,
          fun ⟨⟨named, first, high⟩, later, higher⟩ =>
            ⟨⟨⟨named, first⟩, later⟩, high, higher⟩⟩
  rw [← both]
  constructor
  · rintro ⟨meaningful, height⟩
    rw [Json.height] at height
    exact ⟨by omega, meaningful, by omega⟩
  · rintro ⟨_, meaningful, height⟩
    exact ⟨meaningful, by rw [Json.height]; omega⟩

theorem Fits.array {room : Nat} {items : List Json} (each : ∀ item ∈ items, item.Fits room) :
    (Json.array items).Fits (room + 1) :=
  fits_array_iff.mpr ⟨Nat.succ_pos room, each⟩

theorem Fits.ofList {room : Nat} {write : α → Json} (each : ∀ value, (write value).Fits room)
    (values : List α) : (Json.ofList write values).Fits (room + 1) := by
  refine .array fun item member => ?_
  rcases List.mem_map.mp member with ⟨value, _, rfl⟩
  exact each value

namespace Slots

theorem fits_fields {room : Nat} {slots : Slots}
    (each : ∀ slot ∈ slots, ∀ value, slot.2 = some value → value.Fits room) :
    (Json.object slots.fields).Fits (room + 1) := by
  refine fits_object_iff.mpr ⟨Nat.succ_pos room, fun field member => ?_⟩
  rcases List.mem_flatMap.mp member with ⟨⟨name, _ | value⟩, held, inside⟩
  · cases inside
  · cases List.mem_singleton.mp inside
    rw [unescape?_escape]
    exact ⟨rfl, each _ held value rfl⟩

theorem ne_of_mem_fields {tag : String} {slots : Slots} (other : tag ∉ slots.map Prod.fst)
    {field : List Char × Json} (member : field ∈ slots.fields) :
    unescape? field.1 ≠ some tag.toList := by
  rcases List.mem_flatMap.mp member with ⟨⟨name, _ | value⟩, held, inside⟩
  · cases inside
  · cases List.mem_singleton.mp inside
    rw [unescape?_escape, Ne, Option.some_inj]
    exact fun same => other (String.toList_injective same ▸ List.mem_map_of_mem (f := Prod.fst) held)

/-- The tag is told apart from the other fields, whose order is kept. -/
theorem tagged?_fields {room : Nat} {tag name : String} {slots : Slots}
    (other : tag ∉ slots.map Prod.fst)
    (each : ∀ slot ∈ slots, ∀ value, slot.2 = some value → value.Fits room) :
    tagged? (room + 1) tag (.object (field tag (.ofString name) ++ slots.fields)) =
      some (name, .object slots.fields) := by
  have whole : (Json.object (fields ((tag, some (.ofString name)) :: slots))).Fits (room + 1) := by
    refine fits_fields fun slot member value held => ?_
    rcases List.mem_cons.mp member with rfl | member
    · cases held
      exact (fits_string name).mono (Nat.zero_le room)
    · exact each slot member value held
  have none : slots.fields.filter (fun field => unescape? field.1 = some tag.toList) = [] :=
    List.filter_eq_nil_iff.mpr fun field member => by simpa using ne_of_mem_fields other member
  have all : slots.fields.filter (fun field => !decide (unescape? field.1 = some tag.toList)) =
      slots.fields :=
    List.filter_eq_self.mpr fun field member => by simpa using ne_of_mem_fields other member
  have first : unescape? (escape tag.toList) = some tag.toList := unescape?_escape tag.toList
  have admitted : ((Json.object (field tag (.ofString name) ++ slots.fields)).isMeaningful &&
      decide ((Json.object (field tag (.ofString name) ++ slots.fields)).height ≤ room + 1)) =
        true :=
    Bool.and_eq_true_iff.mpr ⟨whole.meaningful, decide_eq_true whole.height⟩
  rw [tagged?, if_pos admitted]
  simp only [field, List.singleton_append, List.filter_cons, first, none, all]
  simp [roundTrips_string.read]

end Slots

end MemberStubs.Json
