import MemberStubs.CommandLine.Arguments
import MemberStubs.Explain.Page
import MemberStubs.Pipeline.Applying
import MemberStubs.Pipeline.Planning

namespace MemberStubs

/-! What the commands do. A blocked plan and a blocked application are stored and reported like any
other, but the command does not succeed. -/

namespace ExitCode

def success : UInt8 := 0

def failure : UInt8 := 1

def blocked : UInt8 := 2

def usage : UInt8 := 2

end ExitCode

inductive CommandError where
  | usage
  | failed (failure : Failure)
  deriving DecidableEq, Repr

def CommandError.message : CommandError → String
  | .usage => "usage: absfix (plan | apply | explain) [OPTIONS]"
  | .failed failure => failure.message

structure CommandResult where
  exitCode : UInt8 := ExitCode.success
  output : String := ""
  error : Option CommandError := none
  deriving DecidableEq, Repr

namespace Command

def tool : Tool := { name := "absfix", version := some "0.1.0" }

def versionLine : String := "absfix 0.1.0\n"

def finished (output : String) (isBlocked : Bool) : CommandResult :=
  { exitCode := if isBlocked then ExitCode.blocked else ExitCode.success, output }

variable {m : Type → Type} [Monad m] [FileStore m]

def parseConfiguration (text : String) : Attempt m Configuration :=
  match Configuration.parse text with
  | .ok configuration => pure configuration
  | .error .malformed => Attempt.during "invalid TOML" (Attempt.fail .malformedDocument)
  | .error (.invalidIndent invalid) => Attempt.fail (.invalidIndent invalid)

def readConfiguration (path : Path) : Attempt m Configuration := do
  let text ← Attempt.during s!"read config file {path}" (FileStore.readText path)
  Attempt.during s!"parse config file {path}" (parseConfiguration text)

/-- The configuration of a directory without a configuration file is empty. -/
def loadConfiguration (root : Path) : Attempt m Configuration := do
  let path := root / "absfix.toml"
  if ← FileStore.exists? (m := m) path then
    Attempt.during "load absfix.toml config" (readConfiguration path)
  else pure {}

def loadSettings (root : Path) (overrides : Overrides) : Attempt m Settings := do
  let configuration ← loadConfiguration root
  Attempt.ofExcept .invalidIndent (configuration.merge overrides)

def planLine (summary : PlanSummary) : String :=
  s!"planned {summary.stubsTotal} stubs in {summary.classesRepaired} classes " ++
    s!"({summary.classesFailed} unrepaired)\n"

def runPlan (arguments : PlanArguments) : Attempt m CommandResult := do
  let artifacts := arguments.artifacts.getD (arguments.root / "artifacts")
  let output := arguments.output.getD (artifacts / "absfix")
  let program := arguments.program.getD (artifacts / "program.json")
  let merged ← loadSettings arguments.root arguments.overrides
  let settings :=
    { merged with
      maxFiles := arguments.maxFiles <|> merged.maxFiles
      maxClasses := arguments.maxClasses <|> merged.maxClasses }
  let outcome ← Planning.run arguments.root settings (.ofPaths artifacts arguments.reports)
    (.file program) tool
  (outcome.artifacts output).store
  pure (finished (planLine outcome.plan.summary) outcome.isBlocked)

def applyLine (dryRun : Bool) (record : ApplyRecord) : String :=
  if dryRun then
    let count := record.results.countP fun result => result.status = .skipped
    s!"dry-run: {count} files would change (pass --apply to write)\n"
  else s!"applied: {record.summary.filesModified} files modified\n"

def runApply (arguments : ApplyArguments) (now : Timestamp) : Attempt m CommandResult := do
  let output := arguments.output.getD (arguments.root / "artifacts" / "absfix")
  let settings ← loadSettings arguments.root arguments.overrides
  let task : ApplyTask :=
    { root := arguments.root
      directory := output
      dryRun := !arguments.write
      indentUnit := settings.indentUnit
      newline := settings.newline }
  let outcome ← Applying.run task tool now
  (outcome.artifacts output).store
  pure (finished (applyLine task.dryRun outcome.record) outcome.isBlocked)

def runExplain (query : Option String) : Attempt m CommandResult :=
  match query with
  | none => pure { output := Topic.repair.page }
  | some text =>
      match Topic.ofQuery? text with
      | some topic => pure { output := topic.page }
      | none => Attempt.fail (.unknownTopic ⟨text⟩)

def attempt (now : Timestamp) : Command → Attempt m CommandResult
  | .version => pure { output := versionLine }
  | .plan arguments => runPlan arguments
  | .apply arguments => runApply arguments now
  | .explain query => runExplain query

def run (command : Command) (now : Timestamp) : m CommandResult := do
  match ← (command.attempt now).run with
  | .ok result => pure result
  | .error failure =>
      pure { exitCode := ExitCode.failure, error := some (.failed failure) }

end Command

/-- Runs the program on its arguments. -/
def runCommandLine {m : Type → Type} [Monad m] [FileStore m] (arguments : List String)
    (now : Timestamp) : m CommandResult :=
  match Command.parse? arguments with
  | some command => command.run now
  | none => pure { exitCode := ExitCode.usage, error := some .usage }

end MemberStubs
