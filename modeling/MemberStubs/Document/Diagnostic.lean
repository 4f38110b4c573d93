import MemberStubs.Diagnostic
import MemberStubs.Json.Record

namespace MemberStubs

/-! The written form of diagnostics and of reports of them. -/

open Json (Fields field optionalField listField)

def Json.path? (json : Json) : Option Path :=
  json.string?.map Path.mk

def Json.ofPath (path : Path) : Json :=
  .ofString path.text

def Json.ofUInt64 (value : UInt64) : Json :=
  .ofNat value.toNat

namespace Severity

def label : Severity → String
  | .error => "error"
  | .warning => "warning"
  | .suggestion => "suggestion"
  | .message => "message"

def ofLabel? : String → Option Severity
  | "error" => some .error
  | "warning" => some .warning
  | "suggestion" => some .suggestion
  | "message" => some .message
  | _ => none

def ofJson? (json : Json) : Option Severity :=
  json.choice?.bind ofLabel?

end Severity

namespace Tool

def ofJson? (json : Json) : Option Tool := do
  let fields ← json.record? ["name", "version"]
  let name ← fields.required? "name" Json.string?
  let version ← fields.optional? "version" Json.string?
  some { name, version }

def toJson (tool : Tool) : Json :=
  .object <|
    field "name" (.ofString tool.name) ++
    optionalField "version" .ofString tool.version

end Tool

namespace DiagnosticRef

def ofJson? (json : Json) : Option DiagnosticRef := do
  let fields ← json.record? ["code", "file", "start"]
  let code ← fields.required? "code" Json.uint32?
  let file ← fields.required? "file" Json.path?
  let start ← fields.required? "start" Json.uint64?
  some { code, file, start }

def toJson (reference : DiagnosticRef) : Json :=
  .object <|
    field "code" (.ofNat reference.code.toNat) ++
    field "file" (.ofPath reference.file) ++
    field "start" (.ofUInt64 reference.start)

end DiagnosticRef

namespace Diagnostic

def ofJson? (json : Json) : Option Diagnostic := do
  let fields ← json.record? ["code", "file", "start", "length", "category", "message"]
  let code ← fields.required? "code" Json.uint32?
  let file ← fields.required? "file" Json.path?
  let start ← fields.required? "start" Json.uint64?
  let length ← fields.withDefault? "length" 0 Json.uint64?
  let category ← fields.withDefault? "category" .error Severity.ofJson?
  let message ← fields.optional? "message" Json.string?
  some { code, file, start, length, category, message }

def toJson (diagnostic : Diagnostic) : Json :=
  .object <|
    field "code" (.ofNat diagnostic.code.toNat) ++
    field "file" (.ofPath diagnostic.file) ++
    field "start" (.ofUInt64 diagnostic.start) ++
    field "length" (.ofUInt64 diagnostic.length) ++
    field "category" (.ofString diagnostic.category.label) ++
    optionalField "message" .ofString diagnostic.message

end Diagnostic

namespace DiagnosticReport

def ofJson? (json : Json) : Option DiagnosticReport := do
  let fields ← json.record? ["schema", "tool", "diagnostics"]
  let schema ← fields.required? "schema" Json.string?
  let tool ← fields.required? "tool" Tool.ofJson?
  let diagnostics ← fields.withDefault? "diagnostics" [] (Json.list? Diagnostic.ofJson?)
  some { schema, tool, diagnostics }

def toJson (report : DiagnosticReport) : Json :=
  .object <|
    field "schema" (.ofString report.schema) ++
    field "tool" report.tool.toJson ++
    field "diagnostics" (.ofList Diagnostic.toJson report.diagnostics)

end DiagnosticReport

end MemberStubs
