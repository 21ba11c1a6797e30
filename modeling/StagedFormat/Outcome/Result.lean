/-! What became of one target, and the order in which outcomes are reported. -/

namespace StagedFormat

inductive FailureCause where
  /-- The target could not be read or written. -/
  | io
  /-- The formatter turned the content down. -/
  | format
  /-- The formatter crashed. -/
  | crash
  deriving DecidableEq, Repr

inductive Result where
  | alreadyFormatted (name : String)
  | wouldFormat (name : String)
  | formatted (name : String)
  | error (name message : String) (cause : FailureCause)
  deriving DecidableEq, Repr

namespace Result

def name : Result → String
  | .alreadyFormatted name | .wouldFormat name | .formatted name | .error name _ _ => name

/-- Severity, the least first. -/
def rank : Result → Nat
  | .alreadyFormatted _ => 0
  | .wouldFormat _ => 1
  | .formatted _ => 2
  | .error _ _ _ => 3

def isError : Result → Bool
  | .error _ _ _ => true
  | _ => false

/-- Whether the content differs from its formatted form. -/
def isChange : Result → Bool
  | .wouldFormat _ | .formatted _ => true
  | _ => false

/-- The line of a report; nothing is said of targets that were formatted already. -/
def reportLine : Result → Option String
  | .alreadyFormatted _ => none
  | .wouldFormat name => some ("🛠️ Would format " ++ name)
  | .formatted name => some ("✅ Formatted " ++ name)
  | .error _ message _ => some ("⛔️ " ++ message)

def description (result : Result) : String :=
  result.reportLine.getD (result.name ++ " is already formatted")

/-- By severity, then by name; messages and causes do not count. -/
def order (a b : Result) : Ordering := (compare a.rank b.rank).then (compare a.name b.name)

def sorted (results : List Result) : List Result :=
  results.mergeSort fun a b => a.order b != .gt

end Result

end StagedFormat
