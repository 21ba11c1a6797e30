import StagedFormat.Settings.Layer
import StagedFormat.Proofs.NumberTexts

/-! Layers of settings as YAML trees. A layer is decoded from the mapping that has an entry for each key that the
layer sets, and no other entry. -/

namespace StagedFormat.Proofs.SettingsNodes
open StagedFormat Settings Yaml NumberTexts

/-! Numbers -/

private theorem hexDigitValue?_digit {c : Char} (digit : c.isDigit) :
    hexDigitValue? c = some (c.toNat - '0'.toNat) := by
  obtain ⟨lower, upper⟩ := isDigit_iff.mp digit
  have decimal : (('0' ≤ c && c ≤ '9') : Bool) = true := by simp only [lower, upper, decide_true, Bool.and_self]
  exact if_pos decimal

private theorem digit_lt {c : Char} (digit : c.isDigit) : c.toNat - '0'.toNat < 10 := by
  have upper : c.toNat ≤ '9'.toNat := (isDigit_iff.mp digit).2
  have nine : '9'.toNat = '0'.toNat + 9 := rfl
  omega

private theorem foldl_digits {digits : List Char} (decimal : ∀ c ∈ digits, c.isDigit) (start : Nat) :
    digits.foldl (fun total c => do
      let digit ← hexDigitValue? c
      if digit < 10 then some ((← total) * 10 + digit) else none) (some start) =
        some (Nat.ofDigitChars 10 digits start) := by
  induction digits generalizing start with
  | nil => exact congrArg some Nat.ofDigitChars_nil.symm
  | cons c rest ih =>
    obtain ⟨digit, later⟩ := List.forall_mem_cons.mp decimal
    rw [Nat.ofDigitChars_cons, Nat.mul_comm 10 start, ← ih later, List.foldl_cons, hexDigitValue?_digit digit]
    simp only [Option.bind_eq_bind, Option.bind_some, if_pos (digit_lt digit)]

private theorem numeral_decimal {digits : List Char} (numeral : Numeral digits)
    (fits : value digits ≤ Layer.highestNumber) :
    Layer.numeral 10 digits = some (value digits) := by
  have nonempty : digits.isEmpty = false := List.isEmpty_eq_false_iff.mpr numeral.nonempty
  rw [Layer.numeral, nonempty, foldl_digits numeral.decimal]
  simp only [Bool.false_eq_true, if_false]
  exact Option.filter_some_pos (decide_eq_true fits)

private theorem digitChar_ne_zero : ∀ digit < 10, 0 < digit → digit.digitChar ≠ '0' := by decide

private theorem head?_toDigits {number : Nat} (positive : 0 < number) :
    (Nat.toDigits 10 number).head? ≠ some '0' := by
  induction number using Nat.strongRecOn with
  | ind number ih =>
    rw [Nat.toDigits_eq_if (by decide)]
    by_cases small : number < 10
    · rw [if_pos small]
      exact fun same => digitChar_ne_zero number small positive (Option.some.inj same)
    · have fewer := ih (number / 10) (Nat.div_lt_self positive (by decide)) (by omega)
      obtain ⟨first, rest, front⟩ := List.exists_cons_of_ne_nil (Nat.toDigits_ne_nil (b := 10) (n := number / 10))
      rw [if_neg small, front]
      rwa [front] at fewer

private theorem number?_decimal {text : String} (numeral : Numeral text.toList) (front : text.toList.head? ≠ some '0')
    (fits : value text.toList ≤ Layer.highestNumber) : Layer.number? text = some (value text.toList) := by
  have unsigned : text.toList.head? ≠ some '+' := by
    intro plus
    have digit := numeral.decimal '+' (List.mem_of_mem_head? plus)
    cases digit
  rw [Layer.number?, if_neg unsigned]
  split
  case h_6 => exact numeral_decimal numeral fits
  all_goals exact absurd (by rw [‹text.toList = _›]; rfl) front

private theorem number?_toString {number : Nat} (fits : number ≤ Layer.highestNumber) :
    Layer.number? (toString number) = some number := by
  rcases Nat.eq_zero_or_pos number with rfl | positive
  · rfl
  · have written : (toString number).toList = Nat.toDigits 10 number := Nat.toList_repr
    have same := value_toDigits number
    have read := @number?_decimal (toString number)
    rw [written, same] at read
    exact read (numeral_toDigits number) (head?_toDigits positive) fits

/-! Mappings -/

def present (table : List (String × Option Node)) : List (String × Node) :=
  table.filterMap fun (key, value) => value.map (key, ·)

def mappingOf (table : List (String × Option Node)) : Node :=
  .mapping ((present table).map fun (key, value) => (.scalar .plain none key, value))

def textNode (text : String) : Node := .scalar .quoted none text

def listNode (texts : List String) : Node := .sequence (texts.map textNode)

def numberNode (number : Nat) : Node := .scalar .plain none (toString number)

def daemonTable (layer : DaemonLayer) : List (String × Option Node) := [
  ("idle_timeout_secs", layer.idleTimeout.map numberNode),
  ("max_runtime_secs", layer.maxRuntime.map numberNode),
  ("check_interval_secs", layer.checkInterval.map numberNode)]

def layerTable (layer : Layer) : List (String × Option Node) := [
  ("extension", layer.extension.map textNode),
  ("build_descriptors", layer.buildDescriptors.map listNode),
  ("build_dir_name", layer.buildDirectory.map textNode),
  ("jobs", layer.jobs.map numberNode),
  ("daemon", if layer.daemon = {} then none else some (mappingOf (daemonTable layer.daemon)))]

def layerNode (layer : Layer) : Node := mappingOf (layerTable layer)

structure Fits (layer : Layer) : Prop where
  jobs : ∀ number ∈ layer.jobs, number < UInt64.size
  idleTimeout : ∀ number ∈ layer.daemon.idleTimeout, number < UInt64.size
  maxRuntime : ∀ number ∈ layer.daemon.maxRuntime, number < UInt64.size
  checkInterval : ∀ number ∈ layer.daemon.checkInterval, number < UInt64.size

private theorem fields_mappingOf (table : List (String × Option Node)) :
    Layer.fields (mappingOf table) = .ok (present table) := by
  have keyed (entries : List (String × Node)) :
      (entries.map fun entry => ((.scalar .plain none entry.1 : Node), entry.2)).mapM
        (fun entry => do return (← Layer.text entry.1, entry.2)) = .ok entries := by
    induction entries with
    | nil => rfl
    | cons entry entries ih =>
      rw [List.map_cons, List.mapM_cons, ih]
      rfl
  exact keyed (present table)

private theorem present_cons (key : String) (value : Option Node) (table : List (String × Option Node)) :
    present ((key, value) :: table) = (value.map (key, ·)).toList ++ present table := by
  cases value <;> rfl

private theorem key_of_present {table : List (String × Option Node)} {entry : String × Node}
    (member : entry ∈ present table) : entry.1 ∈ table.map Prod.fst := by
  obtain ⟨⟨key, value⟩, inside, set⟩ := List.mem_filterMap.mp member
  obtain ⟨node, _, rfl⟩ := Option.map_eq_some_iff.mp set
  exact List.mem_map_of_mem inside

/-- A key that stands in a table once is set once, if it has a value. -/
theorem filter_present {table : List (String × Option Node)} {key : String} {value : Option Node}
    (distinct : (table.map Prod.fst).Nodup) (member : (key, value) ∈ table) :
    (present table).filter (·.1 == key) = (value.map (key, ·)).toList := by
  induction table with
  | nil => cases member
  | cons entry table ih =>
    obtain ⟨name, set⟩ := entry
    obtain ⟨fresh, distinct⟩ := List.nodup_cons.mp distinct
    rw [present_cons, List.filter_append]
    rcases List.mem_cons.mp member with same | member
    · cases same
      have others : (present table).filter (·.1 == key) = [] :=
        List.filter_eq_nil_iff.mpr fun other inside same => fresh (beq_iff_eq.mp same ▸ key_of_present inside)
      rw [others, List.append_nil]
      cases value <;> simp
    · have inside : key ∈ table.map Prod.fst := List.mem_map_of_mem (f := Prod.fst) member
      have different : name ≠ key := fun same => fresh (same ▸ inside)
      rw [ih distinct member]
      cases set <;> simp [different]

/-- A key of a mapping is decoded from its value, and counts as missing if it has none. -/
theorem field_present {α : Type} {table : List (String × Option Node)} {key : String} {value : Option Node}
    (distinct : (table.map Prod.fst).Nodup) (member : (key, value) ∈ table) (missing : α)
    (decode : Layer.Decoder α) :
    Layer.field key missing decode (present table) = value.elim (.ok missing) decode := by
  rw [Layer.field, filter_present distinct member]
  cases value <;> rfl

private theorem field_optional {α : Type} {table : List (String × Option Node)} {key : String} {encode : α → Node}
    {decode : Layer.Decoder α} {set : Option α} (distinct : (table.map Prod.fst).Nodup)
    (member : (key, set.map encode) ∈ table)
    (decoded : ∀ value ∈ set, Layer.optional decode (encode value) = .ok (some value)) :
    Layer.field key none (Layer.optional decode) (present table) = .ok set := by
  rw [field_present distinct member]
  cases set with
  | none => rfl
  | some value => exact decoded value rfl

private theorem number?_null {text : String} (null : Layer.isNull text = true) : Layer.number? text = none := by
  simp only [Layer.isNull, List.contains_iff_mem, List.mem_cons, List.not_mem_nil, or_false] at null
  rcases null with rfl | rfl | rfl | rfl | rfl <;> rfl

private theorem optional_number {number : Nat} (fits : number < UInt64.size) :
    Layer.optional Layer.number (numberNode number) = .ok (some number) := by
  have read : Layer.number? (toString number) = some number := number?_toString (Nat.le_pred_of_lt fits)
  have solid : ¬ Layer.isNull (toString number) = true := by
    intro null
    rw [number?_null null] at read
    cases read
  simp only [numberNode, Layer.optional, if_neg solid, Layer.number, true_or, if_true, read]
  rfl

private theorem optional_text (text : String) : Layer.optional Layer.text (textNode text) = .ok (some text) := rfl

private theorem optional_list (texts : List String) :
    Layer.optional (Layer.list Layer.text) (listNode texts) = .ok (some texts) := by
  have items : (texts.map textNode).mapM Layer.text = .ok texts := by
    induction texts with
    | nil => rfl
    | cons text texts ih =>
      rw [List.map_cons, List.mapM_cons, ih]
      rfl
  rw [listNode, Layer.optional, Layer.list, items]
  · rfl
  · nofun
  · nofun

private theorem daemonOfNode_daemonTable {layer : Layer} (fits : Fits layer) :
    Layer.daemonOfNode (mappingOf (daemonTable layer.daemon)) = .ok layer.daemon := by
  have distinct : ((daemonTable layer.daemon).map Prod.fst).Nodup := by
    change ["idle_timeout_secs", "max_runtime_secs", "check_interval_secs"].Nodup
    decide
  have idle := field_optional distinct (.head _) fun _ set => optional_number (fits.idleTimeout _ set)
  have runtime := field_optional distinct (.tail _ (.head _)) fun _ set => optional_number (fits.maxRuntime _ set)
  have interval := field_optional distinct (.tail _ (.tail _ (.head _))) fun _ set =>
    optional_number (fits.checkInterval _ set)
  simp only [Layer.daemonOfNode, fields_mappingOf, bind, Except.bind, idle, runtime, interval]
  rfl

/-- A layer is decoded from the mapping that sets what it sets. -/
theorem ofNode_layerNode {layer : Layer} (fits : Fits layer) : Layer.ofNode (layerNode layer) = .ok layer := by
  have distinct : ((layerTable layer).map Prod.fst).Nodup := by
    change ["extension", "build_descriptors", "build_dir_name", "jobs", "daemon"].Nodup
    decide
  have extension := field_optional distinct (.head _) fun text _ => optional_text text
  have descriptors := field_optional distinct (.tail _ (.head _)) fun texts _ => optional_list texts
  have directory := field_optional distinct (.tail _ (.tail _ (.head _))) fun text _ => optional_text text
  have jobs := field_optional distinct (.tail _ (.tail _ (.tail _ (.head _)))) fun _ set =>
    optional_number (fits.jobs _ set)
  have daemon : Layer.field "daemon" {} Layer.daemonOfNode (present (layerTable layer)) = .ok layer.daemon := by
    rw [field_present distinct (.tail _ (.tail _ (.tail _ (.tail _ (.head _)))))]
    split
    · rename_i unset
      exact congrArg Except.ok unset.symm
    · exact daemonOfNode_daemonTable fits
  simp only [Layer.ofNode, layerNode, fields_mappingOf, bind, Except.bind, extension, descriptors, directory, jobs,
    daemon]
  rfl

end StagedFormat.Proofs.SettingsNodes
