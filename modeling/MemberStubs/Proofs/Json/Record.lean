import MemberStubs.Document.Diagnostic
import MemberStubs.Json.Record
import MemberStubs.Proofs.Json.Reader

/-! Values that are written and read back. A record is written as slots, one for each of its fields
and in their order, where an empty slot leaves its field out. Reading looks every field up in its
slot. -/

namespace MemberStubs.Json

/-- Whatever value is written is read back, and its written form is not the one of no value. -/
structure RoundTrips (read : Json → Option α) (write : α → Json) : Prop where
  written : ∀ value, (write value).Written
  notNull : ∀ value, write value ≠ .null
  read : ∀ value, read (write value) = some value

theorem RoundTrips.decode?_print {read : Json → Option α} {write : α → Json}
    (trips : RoundTrips read write) (value : α) :
    decode? read (write value).print = some value := by
  rw [decode?, (trips.written value).parse?_print, Option.bind_some, trips.read]

/-! ## Single values -/

theorem roundTrips_string : RoundTrips string? ofString where
  written text := .string text.toList
  notNull _ := nofun
  read text := by
    rw [ofString, string?, unescape?_escape, Option.map_some, String.ofList_toList]

theorem roundTrips_path : RoundTrips path? ofPath where
  written path := roundTrips_string.written path.text
  notNull path := roundTrips_string.notNull path.text
  read path := by rw [path?, ofPath, roundTrips_string.read]; rfl

theorem roundTrips_bool : RoundTrips bool? .bool where
  written := .bool
  notNull _ := nofun
  read _ := rfl

theorem natBelow?_ofNat {value limit : Nat} (below : value < limit) :
    (ofNat value).natBelow? limit = some value := by
  rw [ofNat, natBelow?, natural?_ofNatural, Option.filter_some, if_pos (by simpa using below)]

theorem roundTrips_uint64 : RoundTrips uint64? ofUInt64 where
  written value := .number value.toNat
  notNull _ := nofun
  read value := by
    rw [uint64?, ofUInt64, natBelow?_ofNat value.toNat_lt_size, Option.map_some, UInt64.ofNat_toNat]

theorem roundTrips_uint32 : RoundTrips uint32? fun value => ofNat value.toNat where
  written value := .number value.toNat
  notNull _ := nofun
  read value := by
    rw [uint32?, natBelow?_ofNat value.toNat_lt_size, Option.map_some, UInt32.ofNat_toNat]

theorem roundTrips_choice {label : α → String} {ofLabel? : String → Option α}
    (labels : ∀ value, ofLabel? (label value) = some value) :
    RoundTrips (fun json => json.choice?.bind ofLabel?) fun value => ofString (label value) where
  written value := .string (label value).toList
  notNull _ := nofun
  read value := by
    show ((unescape? (escape (label value).toList)).map String.ofList).bind ofLabel? = _
    rw [unescape?_escape, Option.map_some, String.ofList_toList, Option.bind_some, labels]

theorem nullable?_of_read {read : Json → Option α} {json : Json} {value : α}
    (notNull : json ≠ .null) (reads : read json = some value) :
    json.nullable? read = some (some value) := by
  rw [nullable?, reads, Option.map_some]
  exact notNull

section

variable {read : Json → Option α} {write : α → Json} (trips : RoundTrips read write)

include trips

theorem RoundTrips.list : RoundTrips (list? read) (ofList write) where
  written values := by
    refine .array fun item member => ?_
    rcases List.mem_map.mp member with ⟨value, _, rfl⟩
    exact trips.written value
  notNull _ := nofun
  read values := by
    rw [ofList, list?]
    induction values with
    | nil => rfl
    | cons value values induction =>
        rw [List.map_cons, List.mapM_cons, trips.read, induction]
        rfl

theorem RoundTrips.nullable?_write (value : α) :
    (write value).nullable? read = some (some value) :=
  nullable?_of_read (trips.notNull value) (trips.read value)

end

/-! ## Records -/

abbrev Slots := List (String × Option Json)

namespace Slots

def fields (slots : Slots) : List (List Char × Json) :=
  slots.flatMap fun slot => slot.2.elim [] (field slot.1)

/-- The fields by their names, as they are read. -/
def known (slots : Slots) : Fields :=
  slots.filterMap fun slot => slot.2.map fun value => (slot.1, value)

theorem mapM_keyed?_fields (slots : Slots) : slots.fields.mapM keyed? = some slots.known := by
  induction slots with
  | nil => rfl
  | cons slot slots induction =>
      rcases slot with ⟨name, _ | value⟩
      · exact induction
      · have first : keyed? (escape name.toList, value) = some (name, value) := by
          rw [keyed?, unescape?_escape, Option.map_some, String.ofList_toList]
        show ((escape name.toList, value) :: fields slots).mapM keyed? = _
        rw [List.mapM_cons, first, induction]
        rfl

theorem sublist_known (slots : Slots) :
    (slots.known.map Prod.fst).Sublist (slots.map Prod.fst) := by
  induction slots with
  | nil => exact .slnil
  | cons slot slots induction =>
      rcases slot with ⟨name, _ | value⟩
      · exact .cons _ induction
      · exact .cons_cons _ induction

theorem record?_fields {slots : Slots} {names : List String} (named : slots.map Prod.fst = names)
    (distinct : names.Nodup) : record? names (.object (fields slots)) = some slots.known := by
  subst named
  have all : slots.known.filter (fun field => (slots.map Prod.fst).contains field.1) =
      slots.known := by
    apply List.filter_eq_self.mpr
    intro field member
    simpa using slots.sublist_known.subset (List.mem_map_of_mem (f := Prod.fst) member)
  rw [record?, mapM_keyed?_fields]
  show (if _ then _ else _) = _
  rw [all, if_pos (slots.sublist_known.nodup distinct)]

/-- A record is read as what its slots make up. -/
theorem bind_record?_fields {slots : Slots} {names : List String} {readFields : Fields → Option α}
    {value : α} (named : slots.map Prod.fst = names) (distinct : names.Nodup)
    (known : readFields slots.known = some value) :
    (record? names (.object (fields slots))).bind readFields = some value := by
  rw [record?_fields named distinct, Option.bind_some, known]

theorem written_fields {slots : Slots}
    (each : ∀ slot ∈ slots, ∀ value, slot.2 = some value → value.Written) :
    (Json.object slots.fields).Written := by
  refine .object ?_ ?_ <;>
    · intro field member
      rcases List.mem_flatMap.mp member with ⟨⟨name, _ | value⟩, held, inside⟩
      · cases inside
      · cases List.mem_singleton.mp inside
        first | exact ⟨_, rfl⟩ | exact each _ held value rfl

@[simp] theorem lookup_known_nil (name : String) : (known []).lookup name = none :=
  rfl

@[simp] theorem lookup_known_cons (name other : String) (value : Option Json) (slots : Slots) :
    (known ((other, value) :: slots)).lookup name =
      if name = other then value.or (slots.known.lookup name) else slots.known.lookup name := by
  cases value with
  | none => simp [known]
  | some value =>
      by_cases same : name = other
      · subst same
        simp [known]
      · simp [known, same, List.lookup_cons, beq_false_of_ne same]

@[simp] theorem append_fields (first second : Slots) :
    fields first ++ fields second = fields (first ++ second) :=
  List.flatMap_append.symm

end Slots

@[simp] theorem field_eq_fields (name : String) (value : Json) :
    field name value = Slots.fields [(name, some value)] :=
  rfl

@[simp] theorem optionalField_eq_fields (name : String) (write : α → Json) (value : Option α) :
    optionalField name write value = Slots.fields [(name, value.map write)] := by
  cases value <;> rfl

/-- A list that is left out when it is empty. -/
def present (values : List α) : Option (List α) :=
  if values = [] then none else some values

@[simp] theorem listField_eq_fields (name : String) (write : α → Json) (values : List α) :
    listField name write values = Slots.fields [(name, (present values).map (ofList write))] := by
  cases values <;> rfl

namespace Fields

@[simp] theorem optional?_eq_elim (fields : Fields) (name : String) (read : Json → Option α) :
    fields.optional? name read = (fields.lookup name).elim (some none) (nullable? read) := by
  rw [optional?]
  cases fields.lookup name <;> rfl

@[simp] theorem withDefault?_eq_elim (fields : Fields) (name : String) (value : α)
    (read : Json → Option α) :
    fields.withDefault? name value read = (fields.lookup name).elim (some value) read := by
  rw [withDefault?]
  cases fields.lookup name <;> rfl

end Fields

section

variable {read : Json → Option α} {write : α → Json} (trips : RoundTrips read write)

include trips

theorem RoundTrips.elim_map (value : Option α) :
    (value.map write).elim (some none) (nullable? read) = some value := by
  cases value with
  | none => rfl
  | some value => exact trips.nullable?_write value

theorem RoundTrips.elim_present (values : List α) :
    ((present values).map (ofList write)).elim (some []) (list? read) = some values := by
  rw [present]
  split
  · next empty => rw [empty]; rfl
  · exact trips.list.read values

end

/-- A record is read back if its slots have the names that are read, their values are written forms,
and the values that are read make up the record. -/
theorem RoundTrips.record {read : Json → Option α} {write : α → Json} {names : List String}
    {readFields : Fields → Option α} (distinct : names.Nodup)
    (reads : ∀ json, read json = (record? names json).bind readFields)
    (slots : ∀ value, ∃ slots : Slots, write value = .object slots.fields ∧
      slots.map Prod.fst = names ∧
      (∀ slot ∈ slots, ∀ json, slot.2 = some json → json.Written) ∧
      readFields slots.known = some value) : RoundTrips read write where
  written value := by
    rcases slots value with ⟨slots, written, _, each, _⟩
    rw [written]
    exact Slots.written_fields each
  notNull value := by
    rcases slots value with ⟨slots, written, _⟩
    rw [written]
    exact nofun
  read value := by
    rcases slots value with ⟨slots, written, named, _, known⟩
    rw [written, reads, Slots.bind_record?_fields named distinct known]

end MemberStubs.Json
