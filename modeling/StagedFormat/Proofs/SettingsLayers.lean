import StagedFormat.Disk.Update
import StagedFormat.Settings.Load
import StagedFormat.Proofs.DiskFollowing
import StagedFormat.Proofs.ReplyTexts
import StagedFormat.Proofs.SettingsNodes

/-! Settings in layers. Each key has the value that the repository sets, else the one that the user sets, else the
default, whatever the layers say about other keys. -/

namespace StagedFormat.Proofs.SettingsLayers
open StagedFormat Disk Settings Yaml TextPieces DiskFollowing ReplyTexts SettingsNodes

/-! What a layer does to settings -/

def chosen {α : Type} (repository user : Option α) (default : α) : α := (repository.or user).getD default

/-- A text without the dots that it starts with. -/
def Undotted (value rest : String) : Prop :=
  ∃ dots, value.toList = List.replicate dots '.' ++ rest.toList ∧ rest.toList.head? ≠ some '.'

/-- Settings that have for each key what the layers and the defaults say about it. -/
structure Layered (user repository : Layer) (settings : Settings) : Prop where
  extension : Undotted (chosen repository.extension user.extension ({} : Settings).extension) settings.extension
  buildDescriptors : settings.buildDescriptors =
    chosen repository.buildDescriptors user.buildDescriptors ({} : Settings).buildDescriptors
  buildDirectory : settings.buildDirectory =
    chosen repository.buildDirectory user.buildDirectory ({} : Settings).buildDirectory
  jobs : settings.jobs = repository.jobs.or user.jobs
  idleTimeout : settings.daemon.idleTimeout =
    chosen repository.daemon.idleTimeout user.daemon.idleTimeout ({} : DaemonLimits).idleTimeout
  maxRuntime : settings.daemon.maxRuntime =
    chosen repository.daemon.maxRuntime user.daemon.maxRuntime ({} : DaemonLimits).maxRuntime
  checkInterval : settings.daemon.checkInterval =
    max 1 (chosen repository.daemon.checkInterval user.daemon.checkInterval ({} : DaemonLimits).checkInterval)

structure Tidy (settings : Settings) : Prop where
  undotted : settings.extension.toList.head? ≠ some '.'
  checks : 1 ≤ settings.daemon.checkInterval

/-- Each layer's value is tidied by itself, but it might as well be the one that counts in the end. -/
theorem chosen_map {α : Type} {tidy : α → α} {default : α} (fixed : tidy default = default)
    (repository user : Option α) :
    (repository.map tidy).getD ((user.map tidy).getD default) = tidy (chosen repository user default) := by
  calc (repository.map tidy).getD ((user.map tidy).getD default)
    _ = ((repository.or user).map tidy).getD (tidy default) := by rw [← Option.getD_or, ← Option.map_or, fixed]
    _ = tidy (chosen repository user default) := Option.getD_map tidy default _

private theorem undotted_withoutLeadingDots (value : String) : Undotted value (withoutLeadingDots value) := by
  have split := List.takeWhile_append_dropWhile (p := (· == '.')) (l := value.toList)
  have dots : ∀ c ∈ value.toList.takeWhile (· == '.'), c = '.' :=
    fun _ member => beq_iff_eq.mp (List.mem_takeWhile_imp (p := (· == '.')) member)
  refine ⟨(value.toList.takeWhile (· == '.')).length, ?_, ?_⟩
  · rw [withoutLeadingDots, String.toList_ofList, ← List.eq_replicate_of_mem dots, split]
  · rw [withoutLeadingDots, String.toList_ofList]
    intro first
    cases head?_dropWhile first

private theorem apply_apply (layer : Layer) (settings : Settings) :
    (settings.apply layer).apply layer = settings.apply layer := by
  simp only [apply, ← Option.getD_or, ← Option.or_assoc, Option.or_self]

private theorem apply_tidy {settings : Settings} (tidy : Tidy settings) (layer : Layer) :
    Tidy (settings.apply layer) where
  undotted := by
    change ((layer.extension.map withoutLeadingDots).getD settings.extension).toList.head? ≠ some '.'
    cases layer.extension with
    | none => exact tidy.undotted
    | some value =>
      obtain ⟨_, _, undotted⟩ := undotted_withoutLeadingDots value
      exact undotted
  checks := by
    change 1 ≤ (layer.daemon.checkInterval.map (max 1 ·)).getD settings.daemon.checkInterval
    cases layer.daemon.checkInterval with
    | none => exact tidy.checks
    | some value => exact Nat.le_max_left 1 value

private theorem tidy_default : Tidy {} := ⟨by decide, by decide⟩

private theorem layered_apply (user repository : Layer) :
    Layered user repository ((({} : Settings).apply user).apply repository) where
  extension := by
    have value : ((({} : Settings).apply user).apply repository).extension =
        withoutLeadingDots (chosen repository.extension user.extension ({} : Settings).extension) :=
      chosen_map (by rfl) _ _
    rw [value]
    exact undotted_withoutLeadingDots _
  buildDescriptors := Option.getD_or.symm
  buildDirectory := Option.getD_or.symm
  jobs := congrArg repository.jobs.or Option.or_none
  idleTimeout := Option.getD_or.symm
  maxRuntime := Option.getD_or.symm
  checkInterval := chosen_map (by rfl) _ _

/-! Loading layers from files -/

/-- The layer that there is for a directory, which may be missing. -/
inductive Sets (disk : Disk) : Option Path → Layer → Prop where
  | nowhere : Sets disk none {}
  /-- No regular file is where the settings would be. -/
  | fileless {base} : disk.isFile (fileBelow base) = false → Sets disk (some base) {}
  | blank {base content} : disk.readText (fileBelow base) = .ok content → Blank content.toList →
      Sets disk (some base) {}
  | decoded {base content layer} : disk.readText (fileBelow base) = .ok content →
      Layer.ofText content = .ok layer → Sets disk (some base) layer

private theorem isFile_of_readText {disk : Disk} {path : Path} {content : String}
    (read : disk.readText path = .ok content) : disk.isFile path = true := by
  obtain ⟨location, id, mode, found⟩ := readText_iff.mp read
  rw [Disk.isFile, inspect_ok.mpr ⟨location, found⟩]
  rfl

private theorem ofText_blank {content : String} (blank : Blank content.toList) : Layer.ofText content = .ok {} := by
  have nothing : Text.trimStart content.toList = [] := List.dropWhile_eq_nil_iff.mpr blank
  have trimmed : content.trimmed = "" := by
    rw [String.trimmed, Text.trim, nothing]
    rfl
  rw [Layer.ofText, if_pos trimmed]
  rfl

private theorem load_decoded {disk : Disk} {path : Path} {content : String} {layer : Layer}
    (read : disk.readText path = .ok content) (decoded : Layer.ofText content = .ok layer) :
    Layer.load disk path = .ok (some layer) := by
  simp only [Layer.load, isFile_of_readText read, if_true, read, decoded]

/-- The layer of a directory. Without a file for it, it is the one that sets nothing. -/
def layerBelow (disk : Disk) (base : Path) : Except SettingsError Layer :=
  (Layer.load disk (fileBelow base)).map (·.getD {})

private theorem overlay_eq (disk : Disk) (settings : Settings) (base : Path) :
    overlay disk settings base = (layerBelow disk base).map settings.apply := by
  rw [overlay, layerBelow]
  cases Layer.load disk (fileBelow base) with
  | error fault => rfl
  | ok layer => cases layer <;> rfl

private theorem layerBelow_sets {disk : Disk} {base : Path} {layer : Layer} (sets : Sets disk (some base) layer) :
    layerBelow disk base = .ok layer := by
  cases sets with
  | fileless missing =>
    have unset : Layer.load disk (fileBelow base) = .ok none := if_neg (missing ▸ Bool.false_ne_true)
    rw [layerBelow, unset]
    rfl
  | blank read blank =>
    rw [layerBelow, load_decoded read (ofText_blank blank)]
    rfl
  | decoded read decoded =>
    rw [layerBelow, load_decoded read decoded]
    rfl

private theorem overlay_sets {disk : Disk} {base : Option Path} {layer : Layer} (sets : Sets disk base layer)
    (settings : Settings) : base.toList.foldlM (overlay disk) settings = .ok (settings.apply layer) := by
  cases base with
  | none =>
    cases sets
    rfl
  | some base =>
    rw [Option.toList_some, List.foldlM_cons, overlay_eq, layerBelow_sets sets]
    rfl

private theorem load_sets {disk : Disk} {home root : Option Path} {user repository : Layer}
    (first : Sets disk home user) (second : Sets disk root repository) :
    Settings.load disk home root = .ok ((({} : Settings).apply user).apply repository) := by
  rw [Settings.load, List.foldlM_append, overlay_sets first]
  exact overlay_sets second _

/-- Whatever the files say, settings stay tidy while layers are put over them. -/
theorem overlays_tidy {disk : Disk} {bases : List Path} {settings loaded : Settings} (tidy : Tidy settings)
    (result : bases.foldlM (overlay disk) settings = .ok loaded) : Tidy loaded := by
  induction bases generalizing settings with
  | nil =>
    cases result
    exact tidy
  | cons base bases ih =>
    rw [List.foldlM_cons, overlay_eq] at result
    cases found : layerBelow disk base with
    | error fault => rw [found] at result; cases result
    | ok layer =>
      rw [found] at result
      exact ih (apply_tidy tidy layer) result

/-- Settings are loaded from every two layers, and have for each key what the layers and the defaults say about it.
Whatever is loaded, there are no dots in front of the extension and the checks are at least a second apart. A layer
that is put over settings twice might as well be put over them once. Every layer whose numbers have 64 bits at most
is what some YAML tree says. -/
theorem settings_layered :
    (∀ (disk : Disk) (home root : Option Path) (user repository : Layer),
      Sets disk home user → Sets disk root repository →
      ∃ settings, Settings.load disk home root = .ok settings ∧ Layered user repository settings) ∧
    (∀ (disk : Disk) (home root : Option Path) (settings : Settings),
      Settings.load disk home root = .ok settings → Tidy settings) ∧
    (∀ (layer : Layer) (settings : Settings), (settings.apply layer).apply layer = settings.apply layer) ∧
    ∀ layer : Layer, Fits layer → Layer.ofNode (layerNode layer) = .ok layer := by
  refine ⟨fun _ _ _ user repository first second => ?_, fun _ _ _ _ loaded => ?_, apply_apply,
    fun _ => ofNode_layerNode⟩
  · exact ⟨_, load_sets first second, layered_apply user repository⟩
  · exact overlays_tidy tidy_default loaded

private theorem ok_of_toOption {ε α : Type} {result : Except ε α} {value : α} (ended : result.toOption = some value) :
    result = .ok value := by
  cases result <;> cases ended
  rfl

def full : Layer where
  extension := some "..kts"
  buildDescriptors := some ["module.yaml"]
  buildDirectory := some "out"
  jobs := some 2
  daemon := { idleTimeout := some 30, maxRuntime := some 90, checkInterval := some 0 }

def fullText : String :=
  "extension: ..kts\nbuild_descriptors: [module.yaml]\nbuild_dir_name: out\njobs: 2\n" ++
    "daemon:\n  idle_timeout_secs: 30\n  max_runtime_secs: 90\n  check_interval_secs: 0\n"

def configured : Disk where
  entries := [
    (["h"], .directory), (["h", ".stagefmt"], .directory),
    (["h", ".stagefmt", "config.yaml"], .file 0 plainMode fullText.toUTF8),
    (["r"], .directory), (["r", ".stagefmt"], .directory),
    (["r", ".stagefmt", "config.yaml"], .file 1 plainMode "jobs: 4\nextension: .kt\n".toUTF8)]
  fresh := 2

theorem settings_layered_full : ∃ settings,
    Sets configured (some ⟨"/h"⟩) full ∧
      Sets configured (some ⟨"/r"⟩) { extension := some ".kt", jobs := some 4 } ∧
      Settings.load configured (some ⟨"/h"⟩) (some ⟨"/r"⟩) = .ok settings ∧
      Layered full { extension := some ".kt", jobs := some 4 } settings ∧ Tidy settings ∧
      Fits full ∧ Layer.ofNode (layerNode full) = .ok full := by
  have first : Sets configured (some ⟨"/h"⟩) full :=
    .decoded (readText_iff.mpr ⟨_, _, _, rfl⟩) (ok_of_toOption (by decide +kernel))
  have second : Sets configured (some ⟨"/r"⟩) { extension := some ".kt", jobs := some 4 } :=
    .decoded (readText_iff.mpr ⟨_, _, _, rfl⟩) (ok_of_toOption (by decide +kernel))
  have fits : Fits full := by constructor <;> rintro _ ⟨⟩ <;> decide
  obtain ⟨layering, tidying, _, decoding⟩ := settings_layered
  obtain ⟨settings, loaded, layered⟩ := layering _ _ _ _ _ first second
  exact ⟨settings, first, second, loaded, layered, tidying _ _ _ _ loaded, fits, decoding _ fits⟩

end StagedFormat.Proofs.SettingsLayers
