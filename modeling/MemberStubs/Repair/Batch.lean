import MemberStubs.PathMap
import MemberStubs.Repair.ClassRepair

namespace MemberStubs

/-! Repair of every class that diagnostics point at. Files are taken in the order of their paths,
the diagnostics of a file in the order in which they are given, and a class once, however many
diagnostics point at it. -/

structure FileRepair where
  classes : List ClassEdit := []
  failures : List ClassFailure := []
  /-- Where the classes start that have been dealt with, repaired or not. -/
  settled : List UInt64 := []
  deriving DecidableEq, Repr

namespace FileRepair

def settle (repair : FileRepair) (start : UInt64) : FileRepair :=
  { repair with settled := start :: repair.settled }

def addFailure (repair : FileRepair) (failure : ClassFailure) : FileRepair :=
  { repair with failures := repair.failures ++ [failure] }

def addTrigger (repair : FileRepair) (start : UInt64) (trigger : DiagnosticRef) : FileRepair :=
  { repair with
    classes := repair.classes.map fun edit =>
      if edit.key.start = start then { edit with triggers := edit.triggers ++ [trigger] }
      else edit }

def addClass (repair : FileRepair) (program : Program) (style : StubStyle)
    (diagnostic : Diagnostic) (target : ClassTarget) : FileRepair :=
  let settled := repair.settle target.key.start
  match repairClass program.typeModel style target [diagnostic.toRef] with
  | .ok (some edit) => { settled with classes := repair.classes ++ [edit] }
  | .ok none => settled
  | .error error => settled.addFailure ⟨diagnostic, target.name, error⟩

def add (program : Program) (style : StubStyle) (file : Path) (repair : FileRepair)
    (diagnostic : Diagnostic) : FileRepair :=
  match program.findClassAt file diagnostic.start with
  | .error error => repair.addFailure ⟨diagnostic, none, error⟩
  | .ok target =>
      if repair.settled.contains target.key.start then
        repair.addTrigger target.key.start diagnostic.toRef
      else repair.addClass program style diagnostic target

end FileRepair

def repairFile (program : Program) (style : StubStyle) (file : Path)
    (diagnostics : List Diagnostic) : FileRepair :=
  diagnostics.foldl (FileRepair.add program style file) {}

/-- The recognized diagnostics of each file. -/
def byFile (diagnostics : List Diagnostic) : PathMap (List Diagnostic) :=
  (diagnostics.filter Diagnostic.isRecognized).foldl
    (fun groups diagnostic => groups.push diagnostic.file.normalize diagnostic) {}

/-- The edits hold all that could be repaired, whether or not there are failures. -/
structure Batch where
  edits : EditSet := {}
  failures : List ClassFailure := []
  deriving DecidableEq, Repr

namespace Batch

def addFile (batch : Batch) (file : Path) (repair : FileRepair) : Batch :=
  let files := if repair.classes.isEmpty then [] else [{ path := file, classes := repair.classes }]
  { edits := { batch.edits with files := batch.edits.files ++ files }
    failures := batch.failures ++ repair.failures }

def addGroup (program : Program) (style : StubStyle) (batch : Batch)
    (group : Path × List Diagnostic) : Batch :=
  batch.addFile group.1 (repairFile program style group.1 group.2)

def failureMessage (batch : Batch) : String :=
  s!"{batch.failures.length} class(es) could not be repaired"

end Batch

def repairAll (program : Program) (style : StubStyle) (diagnostics : List Diagnostic) : Batch :=
  (byFile diagnostics).entries.foldl (Batch.addGroup program style) {}

/-! ## Cancellation

Someone else may raise a flag while a batch runs. Before each file the batch looks at the flag, and
it ends there if the flag is up. Each diagnostic takes one lookup of a class; `raisedAfter` says with
which lookup the flag goes up, and zero says that it is up from the beginning. -/

def isRaised (raisedAfter : Option Nat) (lookups : Nat) : Bool :=
  raisedAfter.any (· ≤ lookups)

structure CancellableBatch where
  batch : Batch := {}
  lookups : Nat := 0
  cancelled : Bool := false
  deriving DecidableEq, Repr

namespace CancellableBatch

def cancelMessage (run : CancellableBatch) : String :=
  s!"batch cancelled after {run.batch.edits.files.length} file(s)"

def addGroup (program : Program) (style : StubStyle) (raisedAfter : Option Nat)
    (run : CancellableBatch) (group : Path × List Diagnostic) : CancellableBatch :=
  if run.cancelled || isRaised raisedAfter run.lookups then { run with cancelled := true }
  else
    { run with
      batch := run.batch.addGroup program style group
      lookups := run.lookups + group.2.length }

end CancellableBatch

def repairCancellable (program : Program) (style : StubStyle) (diagnostics : List Diagnostic)
    (raisedAfter : Option Nat) : CancellableBatch :=
  (byFile diagnostics).entries.foldl (CancellableBatch.addGroup program style raisedAfter) {}

end MemberStubs
