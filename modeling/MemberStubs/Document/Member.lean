import MemberStubs.Json.Record
import MemberStubs.Member

namespace MemberStubs

/-! The written form of members. A shape is tagged with its kind, and a kind that has no name here
is read as an unknown shape. -/

open Json (Fields field optionalField listField)

namespace Visibility

def label : Visibility → String
  | .publicAccess => "public"
  | .implicitAccess => "implicit"
  | .protectedAccess => "protected"
  | .internalAccess => "internal"
  | .privateAccess => "private"

def ofLabel? : String → Option Visibility
  | "public" => some .publicAccess
  | "implicit" => some .implicitAccess
  | "protected" => some .protectedAccess
  | "internal" => some .internalAccess
  | "private" => some .privateAccess
  | _ => none

def ofJson? (json : Json) : Option Visibility :=
  json.choice?.bind ofLabel?

def toJson (visibility : Visibility) : Json :=
  .ofString visibility.label

end Visibility

namespace TypeParameter

def ofJson? (json : Json) : Option TypeParameter := do
  let fields ← json.record? ["name", "constraint", "default"]
  let name ← fields.required? "name" Json.string?
  let constraint ← fields.optional? "constraint" Json.string?
  let fallback ← fields.optional? "default" Json.string?
  some { name, constraint, fallback }

def toJson (parameter : TypeParameter) : Json :=
  .object <|
    field "name" (.ofString parameter.name) ++
    optionalField "constraint" .ofString parameter.constraint ++
    optionalField "default" .ofString parameter.fallback

end TypeParameter

namespace Parameter

def ofJson? (json : Json) : Option Parameter := do
  let fields ← json.record? ["name", "type", "optional", "rest"]
  let name ← fields.required? "name" Json.string?
  let type ← fields.optional? "type" Json.string?
  let isOptional ← fields.withDefault? "optional" false Json.bool?
  let isRest ← fields.withDefault? "rest" false Json.bool?
  some { name, type, isOptional, isRest }

def toJson (parameter : Parameter) : Json :=
  .object <|
    field "name" (.ofString parameter.name) ++
    optionalField "type" .ofString parameter.type ++
    field "optional" (.bool parameter.isOptional) ++
    field "rest" (.bool parameter.isRest)

end Parameter

namespace MemberShape

def ofMethod? (json : Json) : Option MemberShape := do
  let fields ← json.record? ["type_params", "params", "return_type"]
  let typeParameters ← fields.withDefault? "type_params" [] (Json.list? TypeParameter.ofJson?)
  let parameters ← fields.withDefault? "params" [] (Json.list? Parameter.ofJson?)
  let returnType ← fields.optional? "return_type" Json.string?
  some (.method typeParameters parameters returnType)

def ofProperty? (json : Json) : Option MemberShape := do
  let fields ← json.record? ["type"]
  let type ← fields.optional? "type" Json.string?
  some (.property type)

def ofGetter? (json : Json) : Option MemberShape := do
  let fields ← json.record? ["return_type"]
  let returnType ← fields.optional? "return_type" Json.string?
  some (.getter returnType)

def ofSetter? (json : Json) : Option MemberShape := do
  let fields ← json.record? ["param"]
  let parameter ← fields.required? "param" Parameter.ofJson?
  some (.setter parameter)

def ofAccessorPair? (json : Json) : Option MemberShape := do
  let fields ← json.record? ["return_type", "param"]
  let returnType ← fields.optional? "return_type" Json.string?
  let parameter ← fields.required? "param" Parameter.ofJson?
  some (.accessorPair returnType parameter)

/-- Nothing is asked of the fields of a kind that has no name here. -/
def ofUnknown? : Json → Option MemberShape
  | .array (_ :: _) => none
  | _ => some .unknown

def ofKind? (kind : String) (json : Json) : Option MemberShape :=
  match kind with
  | "method" => ofMethod? json
  | "property" => ofProperty? json
  | "get_accessor" => ofGetter? json
  | "set_accessor" => ofSetter? json
  | "accessor_pair" => ofAccessorPair? json
  | _ => ofUnknown? json

def ofJson? (room : Nat) (json : Json) : Option MemberShape := do
  let (kind, json) ← json.tagged? room "kind"
  ofKind? kind json

def fields : MemberShape → List (List Char × Json)
  | .method typeParameters parameters returnType =>
      listField "type_params" TypeParameter.toJson typeParameters ++
      field "params" (.ofList Parameter.toJson parameters) ++
      optionalField "return_type" .ofString returnType
  | .property type => optionalField "type" .ofString type
  | .getter returnType => optionalField "return_type" .ofString returnType
  | .setter parameter => field "param" parameter.toJson
  | .accessorPair returnType parameter =>
      optionalField "return_type" .ofString returnType ++ field "param" parameter.toJson
  | .unknown => []

def toJson (shape : MemberShape) : Json :=
  .object (field "kind" (.ofString shape.label) ++ shape.fields)

end MemberShape

namespace Member

/-- The `room` is how many arrays and objects may be open inside, the member itself included. -/
def ofJson? (room : Nat) (json : Json) : Option Member := do
  let fields ← json.record? ["name", "shape", "visibility", "abstract", "readonly", "optional"]
  let name ← fields.required? "name" Json.string?
  let shape ← fields.required? "shape" (MemberShape.ofJson? (room - 1))
  let visibility ← fields.withDefault? "visibility" .implicitAccess Visibility.ofJson?
  let isAbstract ← fields.withDefault? "abstract" false Json.bool?
  let isReadonly ← fields.withDefault? "readonly" false Json.bool?
  let isOptional ← fields.withDefault? "optional" false Json.bool?
  some { name, shape, visibility, isAbstract, isReadonly, isOptional }

def toJson (member : Member) : Json :=
  .object <|
    field "name" (.ofString member.name) ++
    field "shape" member.shape.toJson ++
    field "visibility" member.visibility.toJson ++
    field "abstract" (.bool member.isAbstract) ++
    field "readonly" (.bool member.isReadonly) ++
    field "optional" (.bool member.isOptional)

end Member

end MemberStubs
