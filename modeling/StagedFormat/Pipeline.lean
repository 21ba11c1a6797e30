import StagedFormat.Outcome.Report
import StagedFormat.Scope.Basic
import StagedFormat.Source.Layout

/-! Formatting all targets of a scope: each is read, formatted and written back on its own, and what
became of them is reported. -/

namespace StagedFormat

/-- What a formatter makes of a text. -/
inductive Verdict where
  | text (formatted : String)
  | rejected (error : Source.FormatError)
  | crashed (message : String)
  deriving DecidableEq, Repr

abbrev Formatter := String → Verdict

/-- The formatter of standard spacing. -/
def spacing : Formatter := fun source =>
  match Source.format source with
  | .ok formatted => .text formatted
  | .error error => .rejected error

/-- What a command asks for. -/
inductive Mode where
  | workingDirectory
  | preCommit
  | prePush (commit : String)
  deriving DecidableEq, Repr

def Mode.isPrePush : Mode → Bool
  | .prePush _ => true
  | _ => false

structure Request where
  mode : Mode
  files : List Path
  dryRun : Bool
  collectCounts : Bool
  deriving DecidableEq, Repr

/-- Why a whole command came to nothing. -/
inductive PipelineFault where
  | scope (error : ScopeError)
  /-- A writer crashed. -/
  | crashed (message : String)
  deriving DecidableEq, Repr

def PipelineFault.message : PipelineFault → String
  | .scope error => "failed to resolve targets: " ++ error.message
  | .crashed message => message

namespace Pipeline

def ioFailure (name : String) (error : TargetError) : Result :=
  .error name ("I/O error while processing " ++ name ++ ": " ++ error.message ++ "; skipping.") .io

def formatFailure (name cause : String) (kind : FailureCause) : Result :=
  .error name ("Unexpected error formatting " ++ name ++ ": " ++ cause) kind

/-- What became of one target: its result, or the message of a crash, and the characters read. -/
structure Handled where
  result : Except String Result
  characters : Nat

/-- How many characters were read from all targets. -/
def totalCharacters : List Handled → Nat
  | [] => 0
  | handled :: others => handled.characters + totalCharacters others

/-- Writes formatted content back. -/
def writeBack (workspace : Workspace) (target : Target) (content : String) :
    Except String Result × Workspace :=
  match target.write workspace content with
  | (.ok (), next) => (.ok (.formatted target.name), next)
  | (.error (.failed error), next) => (.ok (ioFailure target.name error), next)
  | (.error (.crashed message), next) => (.error message, next)

/-- What follows from the content of a target. -/
def settle (format : Formatter) (dryRun : Bool) (workspace : Workspace) (target : Target)
    (content : String) : Except String Result × Workspace :=
  match format content with
  | .rejected error => (.ok (formatFailure target.name error.message .format), workspace)
  | .crashed message => (.ok (formatFailure target.name message .crash), workspace)
  | .text formatted =>
    if formatted = content then (.ok (.alreadyFormatted target.name), workspace)
    else if dryRun then (.ok (.wouldFormat target.name), workspace)
    else writeBack workspace target formatted

/-- Reads, formats and, unless this is a dry run, writes back one target. -/
def formatTarget (format : Formatter) (dryRun : Bool) (workspace : Workspace) (target : Target) :
    Handled × Workspace :=
  match target.read workspace with
  | (.error error, next) => ({ result := .ok (ioFailure target.name error), characters := 0 }, next)
  | (.ok content, next) =>
    let (result, next) := settle format dryRun next target content
    ({ result, characters := content.length }, next)

/-- Handles targets one after the other. A crash does not keep the others from being handled. -/
def formatAll (format : Formatter) (dryRun : Bool) :
    Workspace → List Target → List Handled × Workspace
  | workspace, [] => ([], workspace)
  | workspace, target :: rest =>
    let (handled, next) := formatTarget format dryRun workspace target
    let (others, last) := formatAll format dryRun next rest
    (handled :: others, last)

/-- The results of a scope in the order of reports, and the characters read. -/
def dispatch (format : Formatter) (workspace : Workspace) (scope : Scope) :
    Except PipelineFault (List Result) × Nat × Workspace :=
  let (handled, next) := formatAll format scope.dryRun workspace scope.targets
  let results := (handled.mapM Handled.result).mapError .crashed
  (results.map Result.sorted, totalCharacters handled, next)

def countsOf (scope : Scope) (characters : Nat) : Counts :=
  { targets := scope.targets.length
    blobs := scope.targets.countP Target.touchesIndex
    files := scope.targets.countP Target.touchesWorkingTree
    characters }

/-- Formats a scope and reports on it; the number says how many characters were read. -/
def runScope (format : Formatter) (workspace : Workspace) (scope : Scope) (prePush collectCounts : Bool) :
    Except PipelineFault Report × Nat × Workspace :=
  let (results, characters, next) := dispatch format workspace scope
  let report (results : List Result) : Report :=
    { Report.render results prePush with
      counts := if collectCounts then some (countsOf scope characters) else none }
  (results.map report, characters, next)

/-- The scope of a request. -/
def resolve (resolver : Resolver) (workspace : Workspace) (request : Request) :
    Except ScopeError Scope × Workspace :=
  match request.mode with
  | .workingDirectory =>
    (.ok (resolver.workingDirectory workspace.disk request.files request.dryRun), workspace)
  | .preCommit => resolver.preCommit workspace request.files request.dryRun
  | .prePush commit => resolver.prePush workspace request.files commit

/-- Resolves a request, formats its targets and reports on them. -/
def run (format : Formatter) (resolver : Resolver) (workspace : Workspace) (request : Request) :
    Except PipelineFault Report × Nat × Workspace :=
  match resolve resolver workspace request with
  | (.error error, next) => (.error (.scope error), 0, next)
  | (.ok scope, next) =>
    runScope format next scope request.mode.isPrePush request.collectCounts

end Pipeline

end StagedFormat
