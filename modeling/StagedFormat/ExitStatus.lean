/-! How a command ended, as a process status and as the code of a daemon's reply. -/

namespace StagedFormat

inductive ExitStatus where
  | success
  /-- A target failed, or the command itself. -/
  | failure
  /-- Flags that exclude each other or are not complete. -/
  | badArguments
  /-- A target changed, or would change, where that matters. -/
  | fileChanged
  deriving DecidableEq, Repr

namespace ExitStatus

def code : ExitStatus → Nat
  | .success => 0
  | .failure => 1
  | .badArguments => 2
  | .fileChanged => 3

def ofCode? : Int → Option ExitStatus
  | 0 => some .success
  | 1 => some .failure
  | 2 => some .badArguments
  | 3 => some .fileChanged
  | _ => none

theorem ofCode?_code (status : ExitStatus) : ofCode? status.code = some status := by
  cases status <;> rfl

end ExitStatus

end StagedFormat
