import MemberStubs.Application.Outcome
import MemberStubs.Store.FileStore

namespace MemberStubs

/-! Edits applied to the files of a store. All files are read before the first one is written. -/

variable {m : Type → Type} [Monad m] [FileStore m]

namespace FileEdit

def fileIn (edit : FileEdit) (root : Path) : Path :=
  root.join edit.path

def attachHash (root : Path) (edit : FileEdit) : Attempt m FileEdit := do
  let path := edit.fileIn root
  let bytes ← Attempt.during s!"read {path}" (FileStore.readBytes path)
  pure { edit with sha256 := some (Digest.sha256 bytes) }

def outcomeIn (root : Path) (options : ApplyOptions) (edit : FileEdit) : Attempt m FileOutcome := do
  let path := edit.fileIn root
  let contents ← Attempt.during s!"read {path}" (FileStore.readText path)
  pure (FileOutcome.of options edit contents)

end FileEdit

namespace EditSet

/-- Records the digest of every file as it is now. -/
def attachHashes (edits : EditSet) (root : Path) : Attempt m EditSet := do
  let files ← edits.files.mapM (FileEdit.attachHash root)
  pure { edits with files }

/-- Files without a class to edit are passed over. -/
def outcomes (edits : EditSet) (root : Path) (options : ApplyOptions) :
    Attempt m (List FileOutcome) :=
  (edits.files.filter fun file => !file.classes.isEmpty).mapM (FileEdit.outcomeIn root options)

def previewPatch (edits : EditSet) (root : Path) (options : ApplyOptions) : Attempt m String := do
  let outcomes ← edits.outcomes root options
  pure (Outcomes.patch outcomes)

def writeModified (root : Path) (file : Path × String) : Attempt m Unit :=
  let path := root.join file.1
  Attempt.during s!"write {path}" (FileStore.writeText path file.2)

/-- The record of the application, and its patch. A dry run writes nothing. -/
def apply (edits : EditSet) (root : Path) (tool : Tool) (options : ApplyOptions)
    (now : Timestamp) : Attempt m (ApplyRecord × String) := do
  let outcomes ← edits.outcomes root options
  if !options.dryRun then
    (Outcomes.modified outcomes).forM (writeModified root)
  pure (Outcomes.record options tool now outcomes, Outcomes.patch outcomes)

end EditSet

end MemberStubs
