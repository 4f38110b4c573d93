import MemberStubs.Document.Edit
import MemberStubs.Document.Member
import MemberStubs.Snapshot

namespace MemberStubs

/-! The written form of snapshots. `room` is how many arrays and objects may be open inside a value,
the value itself included. -/

open Json (Fields field optionalField listField)

namespace Span

def ofJson? (json : Json) : Option Span := do
  let fields ← json.record? ["start", "end"]
  let start ← fields.required? "start" Json.uint64?
  let stop ← fields.required? "end" Json.uint64?
  some { start, stop }

def toJson (span : Span) : Json :=
  .object <|
    field "start" (.ofUInt64 span.start) ++
    field "end" (.ofUInt64 span.stop)

end Span

namespace ClassForm

def label : ClassForm → String
  | .declaration => "declaration"
  | .expression => "expression"
  | .other => "other"

def ofLabel? : String → Option ClassForm
  | "declaration" => some .declaration
  | "expression" => some .expression
  | "other" => some .other
  | _ => none

def ofJson? (json : Json) : Option ClassForm :=
  json.choice?.bind ofLabel?

end ClassForm

namespace TypeRef

def ofJson? (json : Json) : Option TypeRef := do
  let fields ← json.record? ["name", "type_args"]
  let name ← fields.required? "name" Json.string?
  let arguments ← fields.withDefault? "type_args" [] (Json.list? Json.string?)
  some { name, arguments }

def toJson (type : TypeRef) : Json :=
  .object <|
    field "name" (.ofString type.name) ++
    listField "type_args" .ofString type.arguments

end TypeRef

namespace ClassDecl

def ofJson? (room : Nat) (json : Json) : Option ClassDecl := do
  let fields ← json.record?
    ["name", "form", "abstract", "span", "name_span", "open_brace", "type_params", "extends",
      "members"]
  let name ← fields.optional? "name" Json.string?
  let form ← fields.withDefault? "form" .declaration ClassForm.ofJson?
  let isAbstract ← fields.withDefault? "abstract" false Json.bool?
  let span ← fields.withDefault? "span" {} Span.ofJson?
  let nameSpan ← fields.withDefault? "name_span" {} Span.ofJson?
  let openBrace ← fields.withDefault? "open_brace" 0 Json.uint64?
  let typeParameters ← fields.withDefault? "type_params" [] (Json.list? TypeParameter.ofJson?)
  let bases ← fields.withDefault? "extends" [] (Json.list? TypeRef.ofJson?)
  let members ← fields.withDefault? "members" [] (Json.list? (Member.ofJson? (room - 2)))
  some { name, form, isAbstract, span, nameSpan, openBrace, typeParameters, bases, members }

def toJson (decl : ClassDecl) : Json :=
  .object <|
    optionalField "name" .ofString decl.name ++
    field "form" (.ofString decl.form.label) ++
    field "abstract" (.bool decl.isAbstract) ++
    field "span" decl.span.toJson ++
    field "name_span" decl.nameSpan.toJson ++
    field "open_brace" (.ofUInt64 decl.openBrace) ++
    listField "type_params" TypeParameter.toJson decl.typeParameters ++
    listField "extends" TypeRef.toJson decl.bases ++
    field "members" (.ofList Member.toJson decl.members)

end ClassDecl

namespace SourceFile

def ofJson? (room : Nat) (json : Json) : Option SourceFile := do
  let fields ← json.record? ["path", "classes"]
  let path ← fields.required? "path" Json.path?
  let classes ← fields.withDefault? "classes" [] (Json.list? (ClassDecl.ofJson? (room - 2)))
  some { path, classes }

def toJson (file : SourceFile) : Json :=
  .object <|
    field "path" (.ofPath file.path) ++
    field "classes" (.ofList ClassDecl.toJson file.classes)

end SourceFile

namespace Snapshot

def ofJson? (room : Nat) (json : Json) : Option Snapshot := do
  let fields ← json.record? ["schema", "files", "externals"]
  let schema ← fields.required? "schema" Json.string?
  let files ← fields.withDefault? "files" [] (Json.list? (SourceFile.ofJson? (room - 2)))
  let externals ← fields.withDefault? "externals" [] (Json.list? (ClassDecl.ofJson? (room - 2)))
  some { schema, files, externals }

def toJson (snapshot : Snapshot) : Json :=
  .object <|
    field "schema" (.ofString snapshot.schema) ++
    field "files" (.ofList SourceFile.toJson snapshot.files) ++
    field "externals" (.ofList ClassDecl.toJson snapshot.externals)

end Snapshot

end MemberStubs
