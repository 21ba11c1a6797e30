import StagedFormat.Text.Decimal

/-! Times and counts of one command. -/

namespace StagedFormat

/-- What a command worked on. -/
structure Counts where
  targets : Nat
  /-- Targets whose writing updates the index. -/
  blobs : Nat
  /-- Targets whose writing updates the working tree. -/
  files : Nat
  characters : Nat
  deriving DecidableEq, Repr

/-- How long the parts of a command took, in milliseconds. -/
structure Times where
  configure : Float
  format : Float
  report : Float

def statisticsText (times : Times) (counts : Counts) : String :=
  "Time to configure: " ++ times.configure.threePlaces ++ "ms\n" ++
  "   Time to format: " ++ times.format.threePlaces ++ "ms\n" ++
  "   Time to report: " ++ times.report.threePlaces ++ "ms\n" ++
  "     Target count: " ++ toString counts.targets ++ "\n" ++
  "       Blob count: " ++ toString counts.blobs ++ "\n" ++
  "       File count: " ++ toString counts.files ++ "\n" ++
  "  Chars processed: " ++ toString counts.characters

end StagedFormat
