import MemberStubs.Path

namespace MemberStubs

/-! Values by path, in the order of the paths. Spellings of one path share an entry, which keeps the
spelling that came first. -/

structure PathMap (α : Type) where
  entries : List (Path × α) := []
  deriving Repr, Inhabited

namespace PathMap

def updateEntries (path : Path) (change : Option α → α) : List (Path × α) → List (Path × α)
  | [] => [(path, change none)]
  | (key, value) :: later =>
      match path.compare key with
      | .lt => (path, change none) :: (key, value) :: later
      | .eq => (key, change (some value)) :: later
      | .gt => (key, value) :: updateEntries path change later

def update (map : PathMap α) (path : Path) (change : Option α → α) : PathMap α :=
  ⟨updateEntries path change map.entries⟩

def insert (map : PathMap α) (path : Path) (value : α) : PathMap α :=
  map.update path fun _ => value

/-- Entries of equal paths come together, in the order in which they are given. -/
def push (map : PathMap (List α)) (path : Path) (value : α) : PathMap (List α) :=
  map.update path fun values => values.getD [] ++ [value]

def find? (map : PathMap α) (path : Path) : Option α :=
  (map.entries.find? fun entry => entry.1.sameComponents path).map Prod.snd

def ofList (entries : List (Path × α)) : PathMap α :=
  entries.foldl (fun map entry => map.insert entry.1 entry.2) {}

example : (ofList [(⟨"b"⟩, 1), (⟨"a//c"⟩, 2), (⟨"a/c/"⟩, 3)]).entries =
    [(⟨"a//c"⟩, 3), (⟨"b"⟩, 1)] := by
  decide +kernel

end PathMap

end MemberStubs
