import StagedFormat.Disk.Basic

/-! The settings of one invocation, and what they say about paths. -/

namespace StagedFormat

/-- How long a daemon may live, in seconds. -/
structure DaemonLimits where
  idleTimeout : Nat := 24 * 60 * 60
  maxRuntime : Nat := 7 * 24 * 60 * 60
  checkInterval : Nat := 60
  deriving DecidableEq, Repr

structure Settings where
  /-- The extension of source files, without its dot. -/
  extension : String := "kt"
  /-- The files that make a directory beside them build output. -/
  buildDescriptors : List String := ["build.gradle.kts", "build.gradle"]
  buildDirectory : String := "build"
  /-- How many workers format at once; one for each processor if it is not set. -/
  jobs : Option Nat := none
  daemon : DaemonLimits := {}
  deriving DecidableEq, Repr

namespace Settings

def isSourceFile (settings : Settings) (path : Path) : Bool :=
  path.extension == some ↑settings.extension

/-- Whether a directory is build output: it has the name for that, and a build descriptor is a file
beside it. -/
def isBuildOutput (settings : Settings) (disk : Disk) (directory : Path) : Bool :=
  directory.fileName == some ↑settings.buildDirectory &&
    match directory.parent? with
    | some parent => settings.buildDescriptors.any fun name => disk.isFile (parent.join ⟨name⟩)
    | none => false

end Settings

end StagedFormat
