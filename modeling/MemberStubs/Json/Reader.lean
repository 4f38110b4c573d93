import MemberStubs.Json.Basic
import MemberStubs.Json.Token

namespace MemberStubs.Json

/-! A document is read by one pass over its tokens. The state of the pass is the stack of the arrays
and objects that are still open, innermost first, and what may come next in the innermost one. What
an open container holds so far is kept in reverse. -/

inductive Frame where
  | array (before : List Json)
  | object (before : List (List Char × Json)) (key : List Char)

inductive Focus where
  /-- A value has to come. -/
  | value
  /-- An array has just been opened: a value or its end. -/
  | firstItem
  /-- An object has just been opened: a key or its end. -/
  | firstKey
  | key (before : List (List Char × Json))
  | colon (before : List (List Char × Json)) (key : List Char)
  /-- A value is complete: a comma or the end of what holds it. -/
  | complete (value : Json)

structure Progress where
  frames : List Frame
  focus : Focus

namespace Progress

def begin : Progress :=
  ⟨[], .value⟩

def beginValue? (frames : List Frame) : Token → Option Progress
  | .null => some ⟨frames, .complete .null⟩
  | .bool value => some ⟨frames, .complete (.bool value)⟩
  | .number lexeme => some ⟨frames, .complete (.number lexeme)⟩
  | .string lexeme => some ⟨frames, .complete (.string lexeme)⟩
  | .openArray => some ⟨frames, .firstItem⟩
  | .openObject => some ⟨frames, .firstKey⟩
  | _ => none

def endValue? (frames : List Frame) (value : Json) (token : Token) : Option Progress :=
  match frames, token with
  | .array before :: outer, .comma => some ⟨.array (value :: before) :: outer, .value⟩
  | .array before :: outer, .closeArray =>
      some ⟨outer, .complete (.array (value :: before).reverse)⟩
  | .object before key :: outer, .comma => some ⟨outer, .key ((key, value) :: before)⟩
  | .object before key :: outer, .closeObject =>
      some ⟨outer, .complete (.object ((key, value) :: before).reverse)⟩
  | _, _ => none

def step? (progress : Progress) (token : Token) : Option Progress :=
  let frames := progress.frames
  match progress.focus, token with
  | .value, _ => beginValue? frames token
  | .firstItem, .closeArray => some ⟨frames, .complete (.array [])⟩
  | .firstItem, _ => beginValue? (.array [] :: frames) token
  | .firstKey, .closeObject => some ⟨frames, .complete (.object [])⟩
  | .firstKey, .string key => some ⟨frames, .colon [] key⟩
  | .key before, .string key => some ⟨frames, .colon before key⟩
  | .colon before key, .colon => some ⟨.object before key :: frames, .value⟩
  | .complete value, _ => endValue? frames value token
  | _, _ => none

/-- The document is read when nothing is open any more. -/
def result? : Progress → Option Json
  | ⟨[], .complete value⟩ => some value
  | _ => none

end Progress

def ofTokens? (tokens : List Token) : Option Json := do
  let progress ← tokens.foldlM Progress.step? .begin
  progress.result?

def parse? (text : List Char) : Option Json :=
  (tokens? text).bind ofTokens?

/-- Reads a document and what it holds. -/
def decode? (read : Json → Option α) (text : String) : Option α :=
  (parse? text.toList).bind read

end MemberStubs.Json
