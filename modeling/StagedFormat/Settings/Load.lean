import StagedFormat.Settings.Layer

/-! Loading settings: the defaults, then the layer of the user, then that of the repository. -/

namespace StagedFormat

/-- The directory below a home or a repository that holds its state. -/
def stateDirectory : String := ".stagefmt"

inductive SettingsError where
  | io (path : Path) (cause : IoError)
  | malformed (path : Path) (fault : Yaml.Fault)

def SettingsError.message : SettingsError → String
  | .io path cause => "I/O error at " ++ path.text ++ ": " ++ cause.message
  | .malformed path fault => "failed to parse settings at " ++ path.text ++ ": " ++ fault

namespace Settings

def fileBelow (base : Path) : Path := (base.join ⟨stateDirectory⟩).join ⟨"config.yaml"⟩

/-- The layer at a path; what is no regular file is no layer. -/
def Layer.load (disk : Disk) (path : Path) : Except SettingsError (Option Layer) :=
  if disk.isFile path then
    match disk.readText path with
    | .error cause => .error (.io path cause)
    | .ok content =>
      match Layer.ofText content with
      | .error fault => .error (.malformed path fault)
      | .ok layer => .ok (some layer)
  else .ok none

/-- Puts the layer below a directory, if there is one, over settings. -/
def overlay (disk : Disk) (settings : Settings) (base : Path) : Except SettingsError Settings := do
  match ← Layer.load disk (fileBelow base) with
  | some layer => return settings.apply layer
  | none => return settings

/-- The settings for a home and a repository; either may be missing. -/
def load (disk : Disk) (home root : Option Path) : Except SettingsError Settings :=
  (home.toList ++ root.toList).foldlM (overlay disk) {}

end Settings

end StagedFormat
