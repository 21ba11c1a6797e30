import StagedFormat.Pipeline

/-! What goes wrong around a daemon. -/

namespace StagedFormat.Daemon

inductive DaemonError where
  | io (place : String) (cause : IoError)
  | pipeline (fault : PipelineFault)
  | protocol (reason : String)
  | notRunning (lock : Path)
  deriving DecidableEq, Repr

def DaemonError.message : DaemonError → String
  | .io place cause => "I/O error at " ++ place ++ ": " ++ cause.message
  | .pipeline fault => "pipeline error: " ++ fault.message
  | .protocol reason => "daemon protocol error: " ++ reason
  | .notRunning lock => "daemon is not running (no usable lock file at " ++ lock.text ++ ")"

end StagedFormat.Daemon
