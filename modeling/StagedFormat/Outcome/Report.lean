import StagedFormat.ExitStatus
import StagedFormat.Outcome.Result
import StagedFormat.Outcome.Statistics

/-! The report of a command: one line for each outcome that matters, and the exit status. -/

namespace StagedFormat

structure Report where
  output : String
  hasFailure : Bool
  hasChange : Bool
  counts : Option Counts
  deriving DecidableEq, Repr

namespace Report

def nothingToFormat : String := "Nothing to format"

def pushWarning : String :=
  "⚠️ The committed files have formatting errors. " ++
    "Please format the files and commit the formatting changes."

def ofLines (lines : List String) : String := String.join (lines.map (· ++ "\n"))

/-- The report on sorted results; `prePush` says that they are about committed files. -/
def render (results : List Result) (prePush : Bool) : Report :=
  let hasChange := results.any Result.isChange
  let opening := if results.isEmpty then [nothingToFormat] else []
  let closing := if prePush && hasChange then [pushWarning] else []
  { output := ofLines (opening ++ results.filterMap Result.reportLine ++ closing)
    hasFailure := results.any Result.isError
    hasChange
    counts := none }

/-- Failures win over changes; changes count only with `failOnChange`. -/
def exitStatus (report : Report) (failOnChange : Bool) : ExitStatus :=
  if report.hasFailure then .failure
  else if failOnChange && report.hasChange then .fileChanged
  else .success

end Report

end StagedFormat
