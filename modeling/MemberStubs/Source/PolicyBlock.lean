import MemberStubs.ApplyRecord
import MemberStubs.Source.Buffer

namespace MemberStubs

/-! What stops an edit without being a failure: the files are not what they were when the edit was
computed. -/

/-- A class edit whose anchor does not fit its file. -/
structure Misfit where
  path : Path
  className : String
  fault : AnchorFault
  deriving DecidableEq, Repr

def Misfit.message (misfit : Misfit) : String :=
  s!"{misfit.path} ({misfit.className}): {misfit.fault.message}"

inductive PolicyBlock where
  | changedFiles (paths : List String)
  | misfits (messages : List String)
  deriving DecidableEq, Repr

namespace PolicyBlock

def cause : PolicyBlock → String
  | .changedFiles paths => "precondition mismatch: changed since plan: " ++ ", ".intercalate paths
  | .misfits messages => "anchor mismatch: " ++ "; ".intercalate messages

def message (block : PolicyBlock) : String :=
  s!"policy block: {block.cause}"

def exitCode : Nat := 2

end PolicyBlock

def AnchorFault.toPolicyBlock (fault : AnchorFault) : PolicyBlock :=
  .misfits [fault.message]

def Misfit.toPolicyBlock (misfit : Misfit) : PolicyBlock :=
  .misfits [misfit.message]

/-- The block that a record tells of. Changed files come before anchors that do not fit. -/
def ApplyRecord.policyBlock? (record : ApplyRecord) : Option PolicyBlock :=
  if !record.preconditions.verified then
    some (.changedFiles (record.preconditions.mismatches.map HashMismatch.path))
  else
    let blocked := record.results.filter fun result => result.status = .blocked
    match blocked.filterMap FileResult.message with
    | [] => none
    | messages => some (.misfits messages)

/-! ## The edits of one file -/

def FileEdit.insertClass (edit : FileEdit) (layout : Layout) (buffer : SourceBuffer)
    (edited : ClassEdit) : Except Misfit SourceBuffer :=
  match buffer.insert edited.anchor edited.block.toList layout with
  | .ok next => .ok next
  | .error fault => .error ⟨edit.path, edited.displayName, fault⟩

def FileEdit.buffer (edit : FileEdit) (contents : String) (layout : Layout) :
    Except Misfit SourceBuffer :=
  edit.classes.foldlM (edit.insertClass layout) (.ofText contents)

/-- All class edits of a file, or none of them. -/
def FileEdit.render (edit : FileEdit) (contents : String) (layout : Layout) :
    Except Misfit String :=
  (edit.buffer contents layout).map SourceBuffer.text

end MemberStubs
