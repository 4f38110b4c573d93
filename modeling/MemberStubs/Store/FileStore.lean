import MemberStubs.Store.Failure
import MemberStubs.Text.Utf8

namespace MemberStubs

/-! Where files are kept. A store answers whether an operation succeeded and nothing about why it did
not. -/

class FileStore (m : Type → Type) where
  bytes? : Path → m (Option (List UInt8))
  /-- Creates or replaces a file in a directory that exists. -/
  write : Path → List UInt8 → m Bool
  /-- Creates a directory and those on the way to it, as far as they are missing. -/
  makeDirectory : Path → m Bool
  exists? : Path → m Bool
  isDirectory : Path → m Bool
  /-- The names of what a directory holds. -/
  entryNames : Path → m (List String)

namespace FileStore

variable {m : Type → Type} [Monad m] [FileStore m]

def readBytes (path : Path) : Attempt m (List UInt8) := do
  match ← bytes? (m := m) path with
  | some bytes => pure bytes
  | none => Attempt.fail (.cannotRead path)

/-- A file that is not a text cannot be read as one. -/
def readText (path : Path) : Attempt m String := do
  let bytes ← readBytes path
  match Text.ofUtf8? bytes with
  | some text => pure text
  | none => Attempt.fail (.cannotRead path)

def writeText (path : Path) (text : String) : Attempt m Unit := do
  if ← write (m := m) path (Text.utf8Bytes text) then pure ()
  else Attempt.fail (.cannotWrite path)

def createDirectory (path : Path) : Attempt m Unit := do
  if ← makeDirectory (m := m) path then pure ()
  else Attempt.fail (.cannotMakeDirectory path)

end FileStore

/-- A directory, and the texts of the files that go into it. -/
structure Artifacts where
  directory : Path
  files : List (Path × String)
  deriving DecidableEq, Repr

namespace Artifacts

variable {m : Type → Type} [Monad m] [FileStore m]

def storeFile (path : Path) (text : String) : Attempt m Unit := do
  match path.parent? with
  | some parent =>
      Attempt.during s!"create parent dir for {path}" (FileStore.createDirectory parent)
  | none => pure ()
  Attempt.during s!"write {path}" (FileStore.writeText path text)

def store (artifacts : Artifacts) : Attempt m Unit := do
  Attempt.during s!"create_dir_all {artifacts.directory}"
    (FileStore.createDirectory artifacts.directory)
  artifacts.files.forM fun (path, text) => storeFile path text

end Artifacts

end MemberStubs
