namespace MemberStubs

/-! A path keeps the text it was written with. Two spellings are compared by their components:
repeated and trailing slashes never count, and a dot counts only as the very first component. -/

structure Path where
  text : String
  deriving DecidableEq, Repr, Inhabited

namespace Path

inductive Component where
  | root
  | here
  | parent
  | name (text : List Char)
  deriving DecidableEq, Repr

namespace Component

/-- The root comes first, then the leading dot, then steps to the parent, then names. -/
def rank : Component → Nat
  | .root => 0
  | .here => 1
  | .parent => 2
  | .name _ => 3

def text : Component → List Char
  | .root => ['/']
  | .here => ['.']
  | .parent => ['.', '.']
  | .name text => text

/-- Names compare by code points, which orders them as their UTF-8 bytes would. -/
def compareNames : List Char → List Char → Ordering
  | [], [] => .eq
  | [], _ :: _ => .lt
  | _ :: _, [] => .gt
  | a :: first, b :: second => (compare a.toNat b.toNat).then (compareNames first second)

def compare (first second : Component) : Ordering :=
  match first, second with
  | .name a, .name b => compareNames a b
  | _, _ => Ord.compare first.rank second.rank

/-- What one piece between slashes contributes behind the beginning of a path. -/
def ofPiece? (piece : List Char) : Option Component :=
  if piece = [] ∨ piece = ['.'] then none
  else if piece = ['.', '.'] then some .parent
  else some (.name piece)

end Component

/-- The pieces between slashes, empty ones included. -/
def pieces : List Char → List (List Char)
  | [] => [[]]
  | c :: rest =>
      if c = '/' then [] :: pieces rest
      else
        match pieces rest with
        | [] => [[c]]
        | piece :: later => (c :: piece) :: later

def isAbsolute (path : Path) : Bool :=
  path.text.toList.head? = some '/'

def components (path : Path) : List Component :=
  let found := pieces path.text.toList
  let first := if path.isAbsolute then [Component.root]
    else if found.head? = some ['.'] then [Component.here]
    else []
  first ++ found.filterMap Component.ofPiece?

example : components ⟨"./a//b/./c/"⟩ =
    [.here, .name ['a'], .name ['b'], .name ['c']] := by decide +kernel

def compareComponents : List Component → List Component → Ordering
  | [], [] => .eq
  | [], _ :: _ => .lt
  | _ :: _, [] => .gt
  | a :: first, b :: second => (a.compare b).then (compareComponents first second)

def compare (first second : Path) : Ordering :=
  compareComponents first.components second.components

/-- Equality up to spelling. -/
def sameComponents (first second : Path) : Bool :=
  first.components = second.components

/-! Appending a component. A slash goes between two of them, and the root needs none. -/

def pushText (text : List Char) (component : List Char) : List Char :=
  if text = [] ∨ text.getLast? = some '/' then text ++ component
  else text ++ '/' :: component

def ofComponents (components : List Component) : Path :=
  ⟨String.ofList (components.foldl (fun text component => pushText text component.text) [])⟩

/-- An absolute second path replaces the first. -/
def join (first second : Path) : Path :=
  if second.isAbsolute then second
  else ⟨String.ofList (pushText first.text.toList second.text.toList)⟩

example : join ⟨"."⟩ ⟨"a"⟩ = ⟨"./a"⟩ := by decide +kernel

instance : HDiv Path String Path := ⟨fun path name => path.join ⟨name⟩⟩

/-! Normal form. A stack holds the components found so far, last one on top: a dot leaves it alone,
and a step to the parent takes back a name, stays at the root, and is kept otherwise. -/

def pushNormal (stack : List Component) (component : Component) : List Component :=
  match component with
  | .here => stack
  | .parent =>
      match stack with
      | .name _ :: below => below
      | .root :: _ => stack
      | _ => .parent :: stack
  | _ => component :: stack

def normalComponents (components : List Component) : List Component :=
  (components.foldl pushNormal []).reverse

def normalize (path : Path) : Path :=
  ofComponents (normalComponents path.components)

example : normalize ⟨"./src/lib/../../../a.ts"⟩ = ⟨"../a.ts"⟩ := by decide +kernel

/-- Whether two paths name one file, as far as their text tells. -/
def sameFile (first second : Path) : Bool :=
  first.sameComponents second || first.normalize.sameComponents second.normalize

/-! Parts of a path. -/

def fileName? (path : Path) : Option String :=
  match path.components.getLast? with
  | some (.name text) => some (String.ofList text)
  | _ => none

/-- All but the last component; neither the root nor the empty path has a parent. -/
def parent? (path : Path) : Option Path :=
  match path.components.reverse with
  | [] => none
  | .root :: _ => none
  | _ :: before => some (ofComponents before.reverse)

/-- The file name up to its last dot, unless that dot begins the name. -/
def fileStem? (path : Path) : Option String :=
  path.fileName?.map fun name =>
    match name.toList.reverse.dropWhile (· ≠ '.') with
    | '.' :: stem => if stem = [] then name else String.ofList stem.reverse
    | _ => name

example : fileStem? ⟨"d/x.tar.json"⟩ = some "x.tar" := by decide +kernel

example : fileStem? ⟨".json"⟩ = some ".json" := by decide +kernel

end Path

instance : ToString Path := ⟨Path.text⟩

end MemberStubs
