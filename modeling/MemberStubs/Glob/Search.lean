import MemberStubs.Glob.Pattern
import MemberStubs.Store.FileStore

namespace MemberStubs.Glob

/-! The paths in a store that match a pattern. Part after part is put behind the paths found so far,
starting from the current directory, which itself is not written. -/

variable {m : Type → Type} [Monad m] [FileStore m]

def here : Path := ⟨"."⟩

def child (base : Path) (name : String) : Path :=
  if base.sameComponents here then ⟨name⟩ else base / name

/-- The entries of a directory that match, and the dot names if the pattern begins with a dot. -/
def matching (base : Path) (tokens : List Token) : m (List Path) := do
  if ← FileStore.isDirectory base then
    let names ← FileStore.entryNames base
    let found := (names.filter fun name => matchesName tokens name.toList).map (child base)
    let dots := if tokens.head? = some (.literal '.') then
        ([".", ".."].filter fun name => matchesName tokens name.toList).map (base / ·)
      else []
    pure (found ++ dots)
  else pure []

/-- A dot leads on from a directory only, any other name to what is there. -/
def named (base : Path) (name : String) : m (List Path) := do
  let next := child base name
  let leads ← if name = "." || name = ".." then FileStore.isDirectory base
    else FileStore.exists? next
  pure (if leads then [next] else [])

/-- A directory and all directories under it, down to a depth. -/
def directoriesUnder (base : Path) : Nat → m (List Path)
  | 0 => pure []
  | depth + 1 => do
      if ← FileStore.isDirectory base then
        let names ← FileStore.entryNames base
        let inner ← names.mapM fun name => directoriesUnder (child base name) depth
        pure (base :: inner.flatten)
      else pure []

/-- No path has more names than this. -/
def maxDepth : Nat := 2048

/-- Behind two stars every name is compared, also one without a special character. -/
def comparable : Part → List Token
  | .name text => text.toList.map .literal
  | .pattern tokens => tokens
  | .anyDepth => []

def searchFrom (base : Path) : List Part → m (List Path)
  | [] => pure [base]
  | .name text :: later => do
      let bases ← named base text
      let found ← bases.mapM fun next => searchFrom next later
      pure found.flatten
  | .pattern tokens :: later => do
      let bases ← matching base tokens
      let found ← bases.mapM fun next => searchFrom next later
      pure found.flatten
  | [.anyDepth] => do
      let directories ← directoriesUnder base maxDepth
      pure directories.tail
  | .anyDepth :: .anyDepth :: later => searchFrom base (.anyDepth :: later)
  | .anyDepth :: next :: later => do
      let directories ← directoriesUnder base maxDepth
      let found ← directories.mapM fun directory => do
        let names ← FileStore.entryNames (m := m) directory
        let bases := names.filter fun name => matchesName (comparable next) name.toList
        let paths ← bases.mapM fun name => searchFrom (child directory name) later
        pure paths.flatten
      pure found.flatten

/-- Nothing if the pattern is malformed. -/
def search? (pattern : Path) : Option (m (List Path)) :=
  let chars := pattern.text.toList
  let (base, chars) := if pattern.isAbsolute then (⟨"/"⟩, chars.tail) else (here, chars)
  ((Path.pieces chars).mapM part?).map (searchFrom base)

end MemberStubs.Glob
