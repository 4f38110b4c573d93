import MemberStubs.Digest.Sha256
import MemberStubs.Diff.Patch
import MemberStubs.Source.PolicyBlock

namespace MemberStubs

/-! What comes of edits, file by file. The outcome for a file depends on its edit and its contents
alone. -/

structure ApplyOptions where
  dryRun : Bool := true
  /-- Whether a file that has changed since its digest was taken stays as it is. -/
  requireCleanHashes : Bool := true
  indentUnit : String := "    "
  /-- Without a newline every file keeps its own. -/
  newline : Option String := none
  deriving DecidableEq, Repr, Inhabited

def ApplyOptions.layout (options : ApplyOptions) (source : String) : Layout :=
  { newline := options.newline.getD (Text.detectNewline source.toList)
    indentUnit := options.indentUnit }

inductive FileChange where
  /-- The file is not the one that the edit was computed for. -/
  | changed
  | misfit (misfit : Misfit)
  | rendered (text : String)
  deriving DecidableEq, Repr

structure FileOutcome where
  edit : FileEdit
  contents : String
  change : FileChange
  deriving DecidableEq, Repr

namespace FileOutcome

def hashMismatch? (edit : FileEdit) (contents : String) : Option HashMismatch :=
  match edit.sha256 with
  | none => none
  | some expected =>
      let actual := Digest.sha256OfText contents
      if expected = actual then none else some ⟨edit.path.text, expected, actual⟩

def of (options : ApplyOptions) (edit : FileEdit) (contents : String) : FileOutcome :=
  let change :=
    if options.requireCleanHashes && (hashMismatch? edit contents).isSome then .changed
    else
      match edit.render contents (options.layout contents) with
      | .ok text => .rendered text
      | .error misfit => .misfit misfit
  { edit, contents, change }

def result (outcome : FileOutcome) (dryRun : Bool) : FileResult :=
  let blank : FileResult :=
    { path := outcome.edit.path.text
      status := .skipped
      classes := .ofNat outcome.edit.classes.length
      stubsInserted := 0
      sha256Before := some (Digest.sha256OfText outcome.contents) }
  match outcome.change with
  | .changed =>
      { blank with status := .blocked, message := some "sha256 mismatch: file changed since plan" }
  | .misfit misfit =>
      { blank with status := .blocked, message := some misfit.toPolicyBlock.message }
  | .rendered text =>
      { blank with
        status := if dryRun then .skipped else .applied
        message := if dryRun then some "dry-run: not written" else none
        stubsInserted := .ofNat outcome.edit.stubCount
        sha256After := some (Digest.sha256OfText text) }

def isAttempted (outcome : FileOutcome) : Bool :=
  outcome.change ≠ .changed

/-- The path of a file with its text before and after. -/
def rendering? (outcome : FileOutcome) : Option (Path × String × String) :=
  match outcome.change with
  | .rendered text => some (outcome.edit.path, outcome.contents, text)
  | _ => none

end FileOutcome

/-! ## All files together -/

namespace Outcomes

def preconditions (outcomes : List FileOutcome) : Preconditions :=
  { verified := outcomes.all FileOutcome.isAttempted
    mismatches := outcomes.filterMap fun outcome =>
      FileOutcome.hashMismatch? outcome.edit outcome.contents }

def before (outcomes : List FileOutcome) : PathMap String :=
  .ofList <| (outcomes.filterMap FileOutcome.rendering?).map fun (path, text, _) => (path, text)

def after (outcomes : List FileOutcome) : PathMap String :=
  .ofList <| (outcomes.filterMap FileOutcome.rendering?).map fun (path, _, text) => (path, text)

def patch (outcomes : List FileOutcome) : String :=
  Diff.patch (before outcomes) (after outcomes)

/-- The files whose text is no longer the same. -/
def modified (outcomes : List FileOutcome) : List (Path × String) :=
  (after outcomes).entries.filter fun (path, text) => (before outcomes).find? path ≠ some text

def countOf (status : ApplyStatus) (results : List FileResult) : UInt64 :=
  .ofNat (results.countP fun result => result.status = status)

def record (options : ApplyOptions) (tool : Tool) (endedAt : Timestamp)
    (outcomes : List FileOutcome) : ApplyRecord :=
  let results := outcomes.map fun outcome => outcome.result options.dryRun
  { tool
    applied := !options.dryRun
    preconditions := preconditions outcomes
    results
    summary :=
      { attempted := .ofNat (outcomes.countP FileOutcome.isAttempted)
        applied := countOf .applied results
        blocked := countOf .blocked results
        failed := countOf .failed results
        filesModified := if options.dryRun then 0 else .ofNat (modified outcomes).length }
    endedAt := some endedAt }

end Outcomes

end MemberStubs
