import StagedFormat.Settings.Basic
import StagedFormat.Text.WhiteSpace
import StagedFormat.Yaml.Node

/-! One layer of settings: the keys that a file sets, and their decoding from YAML. -/

namespace StagedFormat.Settings

structure DaemonLayer where
  idleTimeout : Option Nat := none
  maxRuntime : Option Nat := none
  checkInterval : Option Nat := none
  deriving DecidableEq, Repr

structure Layer where
  extension : Option String := none
  buildDescriptors : Option (List String) := none
  buildDirectory : Option String := none
  jobs : Option Nat := none
  daemon : DaemonLayer := {}
  deriving DecidableEq, Repr

def withoutLeadingDots (extension : String) : String :=
  String.ofList (extension.toList.dropWhile (· == '.'))

/-- The settings with the keys of a layer put over them. -/
def apply (layer : Layer) (settings : Settings) : Settings :=
  { extension := (layer.extension.map withoutLeadingDots).getD settings.extension
    buildDescriptors := layer.buildDescriptors.getD settings.buildDescriptors
    buildDirectory := layer.buildDirectory.getD settings.buildDirectory
    jobs := layer.jobs.or settings.jobs
    daemon :=
      { idleTimeout := layer.daemon.idleTimeout.getD settings.daemon.idleTimeout
        maxRuntime := layer.daemon.maxRuntime.getD settings.daemon.maxRuntime
        checkInterval :=
          (layer.daemon.checkInterval.map (max 1 ·)).getD settings.daemon.checkInterval } }

namespace Layer

open Yaml

/-- Decoding of a value. -/
abbrev Decoder (α : Type) := Node → Except Fault α

def text : Decoder String
  | .scalar _ _ text => .ok text
  | _ => .error "invalid type, expected a string"

def isNull (text : String) : Bool := ["", "~", "null", "Null", "NULL"].contains text

def highestNumber : Nat := UInt64.size - 1

/-- The number that digits of a base write, if they write one up to the highest number. -/
def numeral (base : Nat) (digits : List Char) : Option Nat :=
  let value (total : Option Nat) (c : Char) : Option Nat := do
    let digit ← hexDigitValue? c
    if digit < base then some ((← total) * base + digit) else none
  if digits.isEmpty then none
  else (digits.foldl value (some 0)).filter (· ≤ highestNumber)

/-- A number without sign or with a plus sign, in base ten without leading zeros, or in base 16, 8 or
2 after `0x`, `0o` or `0b`. -/
def number? (text : String) : Option Nat :=
  let unsigned := if text.toList.head? = some '+' then text.toList.tail else text.toList
  match unsigned with
  | '0' :: 'x' :: digits => numeral 16 digits
  | '0' :: 'o' :: digits => numeral 8 digits
  | '0' :: 'b' :: digits => numeral 2 digits
  | ['0'] => some 0
  | '0' :: _ => none
  | digits => numeral 10 digits

def number : Decoder Nat
  | .scalar style tag text =>
    if style = .plain ∨ (style = .literal ∧ tag = some "tag:yaml.org,2002:int") then
      match number? text with
      | some value => .ok value
      | none => .error "invalid type, expected a number"
    else .error "invalid type, expected a number"
  | _ => .error "invalid type, expected a number"

/-- An empty scalar is an empty list. -/
def list (item : Decoder α) : Decoder (List α)
  | .sequence items => items.mapM item
  | .scalar _ _ "" => .ok []
  | _ => .error "invalid type, expected a sequence"

/-- A null value sets nothing. -/
def optional (decode : Decoder α) : Decoder (Option α)
  | .scalar .plain none text => if isNull text then .ok none else (decode (.scalar .plain none text)).map some
  | .scalar .plain (some "tag:yaml.org,2002:null") text =>
    if text != "" && isNull text then .ok none else .error "invalid value, expected null"
  | node => (decode node).map some

/-- The keys of a mapping with their values. An empty scalar is an empty mapping. -/
def fields : Decoder (List (String × Node))
  | .mapping entries => entries.mapM fun (key, value) => do return (← text key, value)
  | .scalar _ _ "" => .ok []
  | _ => .error "invalid type, expected a mapping"

/-- The value of a key that may be missing but must not be set twice. -/
def field (key : String) (missing : α) (decode : Decoder α) (entries : List (String × Node)) :
    Except Fault α :=
  match entries.filter (·.1 == key) with
  | [] => .ok missing
  | [(_, value)] => decode value
  | _ => .error ("duplicate field " ++ key)

def daemonOfNode : Decoder DaemonLayer := fun node => do
  let entries ← fields node
  return {
    idleTimeout := ← field "idle_timeout_secs" none (optional number) entries
    maxRuntime := ← field "max_runtime_secs" none (optional number) entries
    checkInterval := ← field "check_interval_secs" none (optional number) entries }

def ofNode : Decoder Layer := fun node => do
  let entries ← fields node
  return {
    extension := ← field "extension" none (optional text) entries
    buildDescriptors := ← field "build_descriptors" none (optional (list text)) entries
    buildDirectory := ← field "build_dir_name" none (optional text) entries
    jobs := ← field "jobs" none (optional number) entries
    daemon := ← field "daemon" {} daemonOfNode entries }

/-- The layer that a text writes down; a text without content sets nothing. -/
def ofText (content : String) : Except Fault Layer := do
  if content.trimmed = "" then return {}
  match ← Node.ofText? content with
  | none => return {}
  | some node => ofNode node

end Layer

end StagedFormat.Settings
