import MemberStubs.Store.FileStore

namespace MemberStubs

/-! A disk that is a plain value: what stands at each location, and the directory that relative paths
start from. A location is the list of names that lead to it from the root. -/

abbrev Location := List String

inductive DiskNode where
  | file (bytes : List UInt8)
  | directory
  deriving DecidableEq, Repr

structure Disk where
  nodes : List (Location × DiskNode)
  current : Location
  deriving DecidableEq, Repr

namespace Disk

/-- The root is always there. -/
def node? (disk : Disk) (location : Location) : Option DiskNode :=
  if location.isEmpty then some .directory else disk.nodes.lookup location

def set (disk : Disk) (location : Location) (node : DiskNode) : Disk :=
  { disk with nodes := (location, node) :: disk.nodes.filter fun entry => entry.1 ≠ location }

def erase (disk : Disk) (location : Location) : Disk :=
  { disk with nodes := disk.nodes.filter fun entry => entry.1 ≠ location }

/-! ## Locations of paths -/

/-- What stands between slashes, and a dot for a slash at the end, which asks for a directory. -/
def steps (path : Path) : List String :=
  let found := (Path.pieces path.text.toList).filter (· ≠ [])
  let final := if path.text.toList.getLast? = some '/' then [['.']] else []
  (found ++ final).map String.ofList

def start (disk : Disk) (path : Path) : Location :=
  if path.isAbsolute then [] else disk.current

/-- Where the steps lead. All but the last one must lead to a directory, and so must the last if it is
a dot or two. -/
def follow? (disk : Disk) (location : Location) : List String → Option Location
  | [] => some location
  | "." :: later =>
      if disk.node? location = some .directory then disk.follow? location later else none
  | ".." :: later =>
      if disk.node? location = some .directory then disk.follow? location.dropLast later else none
  | name :: later =>
      if disk.node? location = some .directory then disk.follow? (location ++ [name]) later
      else none

/-- The empty path and names with a null character lead nowhere. -/
def locate? (disk : Disk) (path : Path) : Option Location :=
  if path.text.isEmpty || path.text.toList.contains '\x00' then none
  else disk.follow? (disk.start path) (steps path)

def nodeAt? (disk : Disk) (path : Path) : Option DiskNode :=
  (disk.locate? path).bind disk.node?

/-! ## Operations -/

def bytes? (disk : Disk) (path : Path) : Option (List UInt8) :=
  match disk.nodeAt? path with
  | some (.file bytes) => some bytes
  | _ => none

def write? (disk : Disk) (path : Path) (bytes : List UInt8) : Option Disk := do
  let location ← disk.locate? path
  if disk.node? location = some .directory then none
  else some (disk.set location (.file bytes))

/-- Makes every directory that the steps lead through, up to the first file in the way. -/
def makeSteps (disk : Disk) (location : Location) : List String → Disk × Bool
  | [] => (disk, true)
  | "." :: later => disk.makeSteps location later
  | ".." :: later => disk.makeSteps location.dropLast later
  | name :: later =>
      let next := location ++ [name]
      match disk.node? next with
      | some .directory => disk.makeSteps next later
      | some (.file _) => (disk, false)
      | none => (disk.set next .directory).makeSteps next later

/-- The empty path asks for nothing. -/
def makeDirectory (disk : Disk) (path : Path) : Disk × Bool :=
  if path.text.toList.contains '\x00' then (disk, false)
  else disk.makeSteps (disk.start path) (steps path)

def isDirectory (disk : Disk) (path : Path) : Bool :=
  disk.nodeAt? path = some .directory

def entryNames (disk : Disk) (path : Path) : List String :=
  match disk.locate? path with
  | none => []
  | some location => disk.nodes.filterMap fun entry =>
      if entry.1.dropLast = location then entry.1.getLast? else none

end Disk

instance : FileStore (StateM Disk) where
  bytes? path := do return (← get).bytes? path
  write path bytes := do
    match (← get).write? path bytes with
    | some disk => set disk; return true
    | none => return false
  makeDirectory path := modifyGet fun disk =>
    let (next, made) := disk.makeDirectory path
    (made, next)
  exists? path := do return ((← get).nodeAt? path).isSome
  isDirectory path := do return (← get).isDirectory path
  entryNames path := do return (← get).entryNames path

end MemberStubs
