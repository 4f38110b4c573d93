import MemberStubs.Json.Basic
import MemberStubs.Json.Lexeme
import MemberStubs.Json.Number

namespace MemberStubs.Json

/-! Values of one kind. -/

def ofString (text : String) : Json :=
  .string (escape text.toList)

def ofNat (value : Nat) : Json :=
  .number (ofNatural value)

def ofList (write : α → Json) (values : List α) : Json :=
  .array (values.map write)

def string? : Json → Option String
  | .string lexeme => (unescape? lexeme).map String.ofList
  | _ => none

def bool? : Json → Option Bool
  | .bool value => some value
  | _ => none

def natBelow? (limit : Nat) : Json → Option Nat
  | .number lexeme => (natural? lexeme).filter (· < limit)
  | _ => none

def uint64? (json : Json) : Option UInt64 :=
  (json.natBelow? UInt64.size).map UInt64.ofNat

def uint32? (json : Json) : Option UInt32 :=
  (json.natBelow? UInt32.size).map UInt32.ofNat

def list? (read : Json → Option α) : Json → Option (List α)
  | .array items => items.mapM read
  | _ => none

/-- A value that may be null. -/
def nullable? (read : Json → Option α) : Json → Option (Option α)
  | .null => some none
  | json => (read json).map some

/-- A choice among names: the name itself, or an object that maps it to null. -/
def choice? : Json → Option String
  | .string lexeme => (unescape? lexeme).map String.ofList
  | .object [(key, .null)] => (unescape? key).map String.ofList
  | _ => none

/-! Records. A record is an object whose known fields occur at most once each, whatever other
fields it has; or an array of its values in the order of the fields, with the last ones possibly
missing. -/

abbrev Fields := List (String × Json)

def keyed? (field : List Char × Json) : Option (String × Json) :=
  (unescape? field.1).map fun key => (String.ofList key, field.2)

def record? (names : List String) : Json → Option Fields
  | .object fields => do
      let fields ← fields.mapM keyed?
      let known := fields.filter fun field => names.contains field.1
      if (known.map Prod.fst).Nodup then some known else none
  | .array items => if items.length ≤ names.length then some (names.zip items) else none
  | _ => none

namespace Fields

def required? (fields : Fields) (name : String) (read : Json → Option α) : Option α :=
  (fields.lookup name).bind read

/-- A field that may be missing or null. -/
def optional? (fields : Fields) (name : String) (read : Json → Option α) : Option (Option α) :=
  match fields.lookup name with
  | none => some none
  | some json => json.nullable? read

/-- A field that may be missing, but not null. -/
def withDefault? (fields : Fields) (name : String) (value : α) (read : Json → Option α) :
    Option α :=
  match fields.lookup name with
  | none => some value
  | some json => read json

end Fields

/-! Writing the fields of a record. -/

def field (name : String) (value : Json) : List (List Char × Json) :=
  [(escape name.toList, value)]

/-- A field that is left out without a value. -/
def optionalField (name : String) (write : α → Json) : Option α → List (List Char × Json)
  | none => []
  | some value => field name (write value)

/-- A field that is left out when its list is empty. -/
def listField (name : String) (write : α → Json) : List α → List (List Char × Json)
  | [] => []
  | values => field name (ofList write values)

/-! Tagged records. All of such a record is looked at before its tag is known, so every string in
it must be meaningful, every number representable, and no value may stand deeper than there is
room for. -/

mutual
def isMeaningful : Json → Bool
  | .number lexeme => isFiniteNumeral lexeme
  | .string lexeme => (unescape? lexeme).isSome
  | .array items => areMeaningful items
  | .object fields => areFieldsMeaningful fields
  | _ => true

def areMeaningful : List Json → Bool
  | [] => true
  | item :: items => item.isMeaningful && areMeaningful items

def areFieldsMeaningful : List (List Char × Json) → Bool
  | [] => true
  | (key, value) :: fields =>
      (unescape? key).isSome && value.isMeaningful && areFieldsMeaningful fields
end

/-- How many arrays and objects may be open at once. -/
def maxHeight : Nat := 127

/-- The name of the variant, and its fields as a record of their own. -/
def tagged? (room : Nat) (tag : String) (json : Json) : Option (String × Json) :=
  if json.isMeaningful && json.height ≤ room then
    match json with
    | .object fields =>
        let isTag := fun field : List Char × Json => unescape? field.1 = some tag.toList
        match fields.filter isTag with
        | [(_, name)] => name.string?.map fun name => (name, .object (fields.filter (!isTag ·)))
        | _ => none
    | .array (name :: items) => name.string?.map fun name => (name, .array items)
    | _ => none
  else none

end MemberStubs.Json
