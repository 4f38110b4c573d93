import Std.Time.DateTime.Timestamp
import MemberStubs.CommandLine.Commands

namespace MemberStubs

/-! The program itself: files are kept by the operating system, and the time is that of its clock. -/

namespace HostFiles

def orElse (fallback : α) (action : IO α) : IO α := do
  try action catch _ => pure fallback

def bytes? (path : Path) : IO (Option (List UInt8)) :=
  orElse none do
    let bytes ← IO.FS.readBinFile path.text
    pure (some bytes.toList)

def write (path : Path) (bytes : List UInt8) : IO Bool :=
  orElse false do
    IO.FS.writeBinFile path.text ⟨bytes.toArray⟩
    pure true

def makeDirectory (path : Path) : IO Bool :=
  if path.text.isEmpty then pure true
  else
    orElse false do
      IO.FS.createDirAll path.text
      pure true

def exists? (path : Path) : IO Bool :=
  orElse false do (← IO.FS.realPath path.text).pathExists

def isDirectory (path : Path) : IO Bool :=
  orElse false do (← IO.FS.realPath path.text).isDir

def entryNames (path : Path) : IO (List String) :=
  orElse [] do
    let entries ← (← IO.FS.realPath path.text).readDir
    pure (entries.toList.map fun entry => entry.fileName)

end HostFiles

instance : FileStore IO where
  bytes? := HostFiles.bytes?
  write := HostFiles.write
  makeDirectory := HostFiles.makeDirectory
  exists? := HostFiles.exists?
  isDirectory := HostFiles.isDirectory
  entryNames := HostFiles.entryNames

def currentTime : IO Timestamp := do
  let now ← Std.Time.Timestamp.now
  let nanoseconds := now.toNanosecondsSinceUnixEpoch.val
  let seconds := nanoseconds / 1000000000
  pure ⟨seconds / 86400, (seconds % 86400).toNat, (nanoseconds % 1000000000).toNat⟩

end MemberStubs

open MemberStubs in
def main (arguments : List String) : IO UInt32 := do
  let now ← currentTime
  let result ← (runCommandLine arguments now : IO CommandResult)
  IO.print result.output
  match result.error with
  | some error => IO.eprintln s!"error: {error.message}"
  | none => pure ()
  pure result.exitCode.toUInt32
