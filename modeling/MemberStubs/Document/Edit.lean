import MemberStubs.Document.Diagnostic
import MemberStubs.Edit

namespace MemberStubs

/-! The written form of edits. -/

open Json (Fields field optionalField listField)

namespace ClassKey

def ofJson? (json : Json) : Option ClassKey := do
  let fields ← json.record? ["file", "start"]
  let file ← fields.required? "file" Json.path?
  let start ← fields.required? "start" Json.uint64?
  some { file, start }

def toJson (key : ClassKey) : Json :=
  .object <|
    field "file" (.ofPath key.file) ++
    field "start" (.ofUInt64 key.start)

end ClassKey

namespace StubPolicy

def ofLabel? : String → Option StubPolicy
  | "throw_stub" => some .throwStub
  | "type_default" => some .typeDefault
  | "comment_marker" => some .commentMarker
  | _ => none

def ofJson? (json : Json) : Option StubPolicy :=
  json.choice?.bind ofLabel?

def toJson (policy : StubPolicy) : Json :=
  .ofString policy.label

end StubPolicy

namespace StubKind

def label : StubKind → String
  | .method => "method"
  | .property => "property"
  | .getter => "get_accessor"
  | .setter => "set_accessor"
  | .accessorPair => "accessor_pair"

def ofLabel? : String → Option StubKind
  | "method" => some .method
  | "property" => some .property
  | "get_accessor" => some .getter
  | "set_accessor" => some .setter
  | "accessor_pair" => some .accessorPair
  | _ => none

def ofJson? (json : Json) : Option StubKind :=
  json.choice?.bind ofLabel?

end StubKind

namespace Stub

def ofJson? (json : Json) : Option Stub := do
  let fields ← json.record? ["name", "kind", "text"]
  let name ← fields.required? "name" Json.string?
  let kind ← fields.required? "kind" StubKind.ofJson?
  let text ← fields.required? "text" Json.string?
  some { name, kind, text }

def toJson (stub : Stub) : Json :=
  .object <|
    field "name" (.ofString stub.name) ++
    field "kind" (.ofString stub.kind.label) ++
    field "text" (.ofString stub.text)

end Stub

namespace SkippedMember

def ofJson? (json : Json) : Option SkippedMember := do
  let fields ← json.record? ["name", "reason"]
  let name ← fields.required? "name" Json.string?
  let reason ← fields.required? "reason" Json.string?
  some { name, reason }

def toJson (member : SkippedMember) : Json :=
  .object <|
    field "name" (.ofString member.name) ++
    field "reason" (.ofString member.reason)

end SkippedMember

namespace ClassEdit

def ofJson? (json : Json) : Option ClassEdit := do
  let fields ← json.record?
    ["id", "class", "class_name", "anchor", "stubs", "skipped", "triggers"]
  let id ← fields.required? "id" Json.string?
  let key ← fields.required? "class" ClassKey.ofJson?
  let name ← fields.optional? "class_name" Json.string?
  let position ← fields.required? "anchor" Json.uint64?
  let stubs ← fields.required? "stubs" (Json.list? Stub.ofJson?)
  let skipped ← fields.withDefault? "skipped" [] (Json.list? SkippedMember.ofJson?)
  let triggers ← fields.withDefault? "triggers" [] (Json.list? DiagnosticRef.ofJson?)
  some { id, key, name, anchor := ⟨position⟩, stubs, skipped, triggers }

def toJson (edit : ClassEdit) : Json :=
  .object <|
    field "id" (.ofString edit.id) ++
    field "class" edit.key.toJson ++
    optionalField "class_name" .ofString edit.name ++
    field "anchor" (.ofUInt64 edit.anchor.position) ++
    field "stubs" (.ofList Stub.toJson edit.stubs) ++
    listField "skipped" SkippedMember.toJson edit.skipped ++
    listField "triggers" DiagnosticRef.toJson edit.triggers

end ClassEdit

namespace FileEdit

def ofJson? (json : Json) : Option FileEdit := do
  let fields ← json.record? ["path", "sha256", "classes"]
  let path ← fields.required? "path" Json.path?
  let sha256 ← fields.optional? "sha256" Json.string?
  let classes ← fields.required? "classes" (Json.list? ClassEdit.ofJson?)
  some { path, sha256, classes }

def toJson (edit : FileEdit) : Json :=
  .object <|
    field "path" (.ofPath edit.path) ++
    optionalField "sha256" .ofString edit.sha256 ++
    field "classes" (.ofList ClassEdit.toJson edit.classes)

end FileEdit

namespace EditSet

def ofJson? (json : Json) : Option EditSet := do
  let fields ← json.record? ["schema", "files"]
  let schema ← fields.required? "schema" Json.string?
  let files ← fields.withDefault? "files" [] (Json.list? FileEdit.ofJson?)
  some { schema, files }

def toJson (edits : EditSet) : Json :=
  .object <|
    field "schema" (.ofString edits.schema) ++
    field "files" (.ofList FileEdit.toJson edits.files)

end EditSet

namespace Layout

def ofJson? (json : Json) : Option Layout := do
  let fields ← json.record? ["newline", "indent_unit"]
  let newline ← fields.required? "newline" Json.string?
  let indentUnit ← fields.required? "indent_unit" Json.string?
  some { newline, indentUnit }

def toJson (layout : Layout) : Json :=
  .object <|
    field "newline" (.ofString layout.newline) ++
    field "indent_unit" (.ofString layout.indentUnit)

end Layout

end MemberStubs
