import StagedFormat.Daemon.Error
import StagedFormat.Settings.Load

/-! Failures that end an invocation. They are told with everything that led to them: an error whose
message includes its cause is followed by that cause once more. -/

namespace StagedFormat

def Git.GitError.trace (error : Git.GitError) : List String :=
  error.message ::
    match error with
    | .notStarted _ cause => [cause.message]
    | _ => []

def SettingsError.trace (error : SettingsError) : List String :=
  error.message ::
    match error with
    | .io _ cause => [cause.message]
    | .malformed _ fault => [fault]

def TargetError.trace : TargetError → List String
  | .git error => error.trace
  | .io path cause => [(TargetError.io path cause).message, cause.message]
  | .stream name cause => [(TargetError.stream name cause).message, cause.message]
  | error => [error.message]

def ScopeError.trace : ScopeError → List String
  | .git error => error.trace
  | .listing error => [error.message]

def PipelineFault.trace (fault : PipelineFault) : List String :=
  fault.message ::
    match fault with
    | .scope error => error.trace
    | .crashed _ => []

def Daemon.DaemonError.trace (error : Daemon.DaemonError) : List String :=
  error.message ::
    match error with
    | .io _ cause => [cause.message]
    | .pipeline fault => fault.trace
    | _ => []

namespace CommandLine

/-- What was tried, and the errors behind its failure. -/
structure Failure where
  attempt : String
  trace : List String
  deriving DecidableEq, Repr

def Failure.message (failure : Failure) : String := ": ".intercalate (failure.attempt :: failure.trace)

end CommandLine

end StagedFormat
