import MemberStubs.Toml.Token

namespace MemberStubs.Toml

/-! Documents made of tables, arrays, texts, truth values and natural numbers. Floating-point
numbers, negative numbers, times and arrays of tables are not part of them. -/

/-- How a table came to be, which decides what may still be added to it. -/
inductive TableOrigin where
  /-- It has a header of its own. -/
  | header
  /-- It was named on the way to another table. -/
  | passed
  /-- It comes from a dotted key. -/
  | dotted
  /-- It was written between braces and is complete. -/
  | braces
  deriving DecidableEq, Repr

inductive Value where
  | text (value : String)
  | bool (value : Bool)
  | natural (value : Nat)
  | array (items : List Value)
  | table (origin : TableOrigin) (fields : List (String × Value))

abbrev Table := List (String × Value)

namespace Table

def replace (table : Table) (name : String) (value : Value) : Table :=
  table.map fun field => if field.1 = name then (name, value) else field

/-- Makes the table that a header names. -/
def openHeader? (table : Table) : List String → Option Table
  | [] => none
  | [name] =>
      match table.lookup name with
      | none => some (table ++ [(name, .table .header [])])
      | some (.table .passed fields) => some (table.replace name (.table .header fields))
      | some _ => none
  | name :: path =>
      match table.lookup name with
      | none => do
          let inner ← openHeader? [] path
          some (table ++ [(name, .table .passed inner)])
      | some (.table origin fields) =>
          if origin = .braces then none
          else do
            let inner ← openHeader? fields path
            some (table.replace name (.table origin inner))
      | some _ => none

/-- Adds a value under a dotted key. No key can be given twice. -/
def assign? (table : Table) (value : Value) : List String → Option Table
  | [] => none
  | [name] => if (table.lookup name).isSome then none else some (table ++ [(name, value)])
  | name :: path =>
      match table.lookup name with
      | none => do
          let inner ← assign? [] value path
          some (table ++ [(name, .table .dotted inner)])
      | some (.table origin fields) =>
          if origin = .dotted ∨ origin = .passed then do
            let inner ← assign? fields value path
            some (table.replace name (.table origin inner))
          else none
      | some _ => none

/-- Changes the table at the end of a path. -/
def modifyAt? (table : Table) (change : Table → Option Table) : List String → Option Table
  | [] => change table
  | name :: path =>
      match table.lookup name with
      | some (.table origin fields) => do
          let inner ← modifyAt? fields change path
          some (table.replace name (.table origin inner))
      | _ => none

end Table

/-! ## Reading

One pass over the tokens. Its state holds the document so far, the path of the last header, and what
is open: tables between braces, each with the key under which it will go, and arrays. -/

inductive Frame where
  | braces (fields : Table) (key : List String)
  | array (before : List Value)

inductive Focus where
  /-- A statement may begin. -/
  | statement
  /-- The statement is complete and its line has to end. -/
  | ended
  /-- The next name of a header has to come. -/
  | headerName (path : List String)
  | header (path : List String)
  /-- The next name of a key has to come. -/
  | keyName (path : List String)
  | key (path : List String)
  | value
  /-- Between braces: a key or the end. -/
  | entry
  /-- In an array: a value or the end. -/
  | item
  /-- A value is complete: a comma or the end of what holds it. -/
  | separator
  deriving DecidableEq

structure Progress where
  document : Table := []
  header : List String := []
  /-- The key of the statement at hand. -/
  key : List String := []
  frames : List Frame := []
  focus : Focus := .statement

namespace Progress

def withFocus (progress : Progress) (focus : Focus) : Progress :=
  { progress with focus }

/-- Puts a complete value where it belongs. -/
def complete? (progress : Progress) (value : Value) : Option Progress :=
  match progress.frames with
  | [] => do
      let add := fun table : Table => table.assign? value progress.key
      let document ← progress.document.modifyAt? add progress.header
      some { progress with document, focus := .ended }
  | .array before :: outer =>
      some { progress with frames := .array (value :: before) :: outer, focus := .separator }
  | .braces fields key :: outer => do
      let fields ← fields.assign? value key
      some { progress with frames := .braces fields [] :: outer, focus := .separator }

/-- The key of the innermost table between braces, or of the statement. -/
def setKey (progress : Progress) (key : List String) : Progress :=
  match progress.frames with
  | .braces fields _ :: outer => { progress with frames := .braces fields key :: outer }
  | _ => { progress with key }

def close? (progress : Progress) (mark : Char) : Option Progress :=
  match progress.frames, mark with
  | .braces fields _ :: outer, '\x7d' =>
      { progress with frames := outer }.complete? (.table .braces fields)
  | .array before :: outer, ']' =>
      { progress with frames := outer }.complete? (.array before.reverse)
  | _, _ => none

def scalar? : Token → Option Value
  | .quoted text _ => some (.text (String.ofList text))
  | .bare chars =>
      if chars = "true".toList then some (.bool true)
      else if chars = "false".toList then some (.bool false)
      else (natural? chars).map .natural
  | _ => none

def beginValue? (progress : Progress) (token : Token) : Option Progress :=
  match token with
  | .mark '\x7b' => some { progress with frames := .braces [] [] :: progress.frames, focus := .entry }
  | .mark '[' => some { progress with frames := .array [] :: progress.frames, focus := .item }
  | _ => (scalar? token).bind progress.complete?

def step? (progress : Progress) (token : Token) : Option Progress :=
  match progress.focus, token with
  | .statement, .lineEnd => some progress
  | .statement, .mark '[' => some (progress.withFocus (.headerName []))
  | .statement, _ => token.key?.map fun name => progress.withFocus (.key [name])
  | .ended, .lineEnd => some (progress.withFocus .statement)
  | .headerName path, _ => token.key?.map fun name => progress.withFocus (.header (path ++ [name]))
  | .header path, .mark '.' => some (progress.withFocus (.headerName path))
  | .header path, .mark ']' => do
      let document ← progress.document.openHeader? path
      some { progress with document, header := path, focus := .ended }
  | .keyName path, _ => token.key?.map fun name => progress.withFocus (.key (path ++ [name]))
  | .key path, .mark '.' => some (progress.withFocus (.keyName path))
  | .key path, .mark '=' => some ((progress.setKey path).withFocus .value)
  | .value, _ => progress.beginValue? token
  | .entry, .lineEnd => some progress
  | .entry, .mark '\x7d' => progress.close? '\x7d'
  | .entry, _ => token.key?.map fun name => progress.withFocus (.key [name])
  | .item, .lineEnd => some progress
  | .item, .mark ']' => progress.close? ']'
  | .item, _ => progress.beginValue? token
  | .separator, .lineEnd => some progress
  | .separator, .mark ',' =>
      match progress.frames with
      | .array _ :: _ => some (progress.withFocus .item)
      | _ => some (progress.withFocus .entry)
  | .separator, .mark c => progress.close? c
  | _, _ => none

end Progress

def ofTokens? (tokens : List Token) : Option Table := do
  let progress ← (tokens ++ [Token.lineEnd]).foldlM Progress.step? {}
  if progress.focus = .statement then some progress.document else none

/-- A byte order mark may come first. -/
def parse? (text : String) : Option Table := do
  let chars := match text.toList with
    | '\ufeff' :: rest => rest
    | chars => chars
  let tokens ← tokens? chars
  ofTokens? tokens

end MemberStubs.Toml
