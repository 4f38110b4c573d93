import MemberStubs.Document.Diagnostic
import MemberStubs.Glob.Search
import MemberStubs.Json.Reader
import MemberStubs.Plan

namespace MemberStubs

/-! Reports of diagnostics, from memory or from a store. A report that cannot be read takes its place
among the others and has no diagnostics. -/

inductive ReportFault where
  | unreadable
  | malformed
  deriving DecidableEq, Repr

structure LoadedReport where
  path : Path
  sourceId : String
  report : Except ReportFault DiagnosticReport

namespace LoadedReport

def report? (loaded : LoadedReport) : Option DiagnosticReport :=
  loaded.report.toOption

def toInput (loaded : LoadedReport) : PlanInput :=
  { path := loaded.path.text
    schema := loaded.report?.map DiagnosticReport.schema
    tool := loaded.report?.map fun report => report.tool.name }

end LoadedReport

namespace Reports

/-- All diagnostics, report by report. -/
def diagnostics (reports : List LoadedReport) : List Diagnostic :=
  (reports.filterMap LoadedReport.report?).flatMap DiagnosticReport.diagnostics

/-- Reports of one path keep their order. -/
def sorted (reports : List LoadedReport) : List LoadedReport :=
  reports.mergeSort fun first second => (first.path.compare second.path).isLE

/-! ## Reports in memory

The program's own output is left out: what says so itself, and what comes from the place where it is
written by default. -/

def containsRun (chars run : List Char) : Bool :=
  match chars with
  | [] => run.isEmpty
  | c :: rest => run.isPrefixOf (c :: rest) || containsRun rest run

def isOwnOutput (loaded : LoadedReport) : Bool :=
  let place := loaded.path.text.toList.map fun c => if c = '\\' then '/' else c.toLower
  loaded.sourceId.toList.map Char.toLower = "absfix".toList ||
    "artifacts/absfix/".toList.isPrefixOf place ||
    containsRun place "/artifacts/absfix/".toList

def inMemory (reports : List LoadedReport) : List LoadedReport :=
  sorted (reports.filter fun loaded => !isOwnOutput loaded)

/-! ## Reports in a store -/

variable {m : Type → Type} [Monad m] [FileStore m]

def ofText (text : String) : Except ReportFault DiagnosticReport :=
  match Json.decode? DiagnosticReport.ofJson? text with
  | some report => .ok report
  | none => .error .malformed

def read (path : Path) (sourceId : String) : m LoadedReport := do
  let bytes ← FileStore.bytes? path
  let report := match bytes.bind Text.ofUtf8? with
    | some text => ofText text
    | none => .error .unreadable
  pure { path, sourceId, report }

/-- A file that is given by its path is named after itself. -/
def loadFile (path : Path) : m LoadedReport :=
  read path (path.fileStem?.getD "unknown")

def sourceIdOf (path : Path) : String :=
  ((path.parent?).bind Path.fileName?).getD "unknown"

/-- The file `diagnostics.json` of every directory in a directory is named after the former. The
directory of the program's own output is left out. -/
def loadDirectory (directory : Path) : Attempt m (List LoadedReport) := do
  let pattern := directory.join ⟨"*/diagnostics.json"⟩
  match Glob.search? (m := m) pattern with
  | none =>
      Attempt.during "glob artifacts/*/diagnostics.json"
        (Attempt.fail (.malformedPattern pattern.text))
  | some search =>
      let paths ← search
      let others := paths.filter fun path => sourceIdOf path ≠ "absfix"
      let reports ← others.mapM fun path => (read path (sourceIdOf path) : m LoadedReport)
      pure (sorted reports)

end Reports

/-- Explicit files take the place of a directory. -/
inductive ReportSource where
  | memory (reports : List LoadedReport)
  | directory (path : Path)
  | files (paths : List Path)

namespace ReportSource

variable {m : Type → Type} [Monad m] [FileStore m]

def ofPaths (directory : Path) (files : List Path) : ReportSource :=
  if files.isEmpty then .directory directory else .files files

def load : ReportSource → Attempt m (List LoadedReport)
  | .memory reports => pure (Reports.inMemory reports)
  | .directory path => Attempt.during s!"load diagnostics from {path}" (Reports.loadDirectory path)
  | .files paths => do
      let reports ← paths.mapM fun path => (Reports.loadFile path : m LoadedReport)
      pure (Reports.sorted reports)

end ReportSource

end MemberStubs
