import StagedFormat.Text.Number
import StagedFormat.Text.WhiteSpace

/-! Numbers as text. What is read as a number is one or more decimal digits, with a sign in front of them
or not, whose value is within the limits; no digit is read that does not count. -/

namespace StagedFormat.Proofs.NumberTexts
open StagedFormat

structure Numeral (digits : List Char) : Prop where
  nonempty : digits ≠ []
  decimal : ∀ c ∈ digits, c.isDigit

def value (digits : List Char) : Nat := Nat.ofDigitChars 10 digits 0

inductive Unsigned : List Char → Nat → Prop where
  | plain {digits} : Numeral digits → Unsigned digits (value digits)
  | plus {digits} : Numeral digits → Unsigned ('+' :: digits) (value digits)

/-- A number that is written with a sign or without one. -/
inductive Signed : List Char → Int → Prop where
  | unsigned {text number} : Unsigned text number → Signed text (number : Int)
  | minus {digits} : Numeral digits → Signed ('-' :: digits) (-(value digits : Int))

theorem isDigit_iff {c : Char} : c.isDigit = true ↔ '0' ≤ c ∧ c ≤ '9' := by
  simp only [Char.isDigit, Bool.and_eq_true, decide_eq_true_eq]
  rfl

private theorem solid_digit {c : Char} (digit : c.isDigit) : Text.isWhiteSpace c = false := by
  obtain ⟨lower, upper⟩ := isDigit_iff.mp digit
  have lower : 48 ≤ c.val.toNat := lower
  have upper : c.val.toNat ≤ 57 := upper
  simp only [Text.isWhiteSpace, UInt32.le_iff_toNat_le, ← UInt32.toNat_inj, beq_eq_false_iff_ne, ne_eq,
    Bool.or_eq_false_iff, Bool.and_eq_false_iff, decide_eq_false_iff_not, UInt32.reduceToNat]
  omega

private theorem digitValue?_digit {c : Char} (digit : c.isDigit) :
    Text.digitValue? c = some (c.toNat - '0'.toNat) := if_pos (isDigit_iff.mp digit)

private theorem digitValue?_other {c : Char} (other : ¬ c.isDigit) : Text.digitValue? c = none :=
  if_neg (mt isDigit_iff.mpr other)

private theorem le_ofDigitChars (digits : List Char) (start : Nat) : start ≤ Nat.ofDigitChars 10 digits start := by
  induction digits generalizing start with
  | nil => exact Nat.le_of_eq Nat.ofDigitChars_nil.symm
  | cons c rest ih =>
    rw [Nat.ofDigitChars_cons]
    exact Nat.le_trans (by omega) (ih _)

/-- Digits are read to their end if the number that they add up to is within the limit: the numbers on the
way are not above it. -/
theorem readDigits_iff {limit start number : Nat} {overflow : Text.NumberError} {digits : List Char}
    (fits : start ≤ limit) :
    Text.readDigits limit overflow start digits = .ok number ↔
      (∀ c ∈ digits, c.isDigit) ∧ Nat.ofDigitChars 10 digits start = number ∧ number ≤ limit := by
  induction digits generalizing start with
  | nil =>
    simp only [Text.readDigits, Nat.ofDigitChars_nil, Except.ok.injEq, List.not_mem_nil, false_imp_iff,
      implies_true, true_and]
    exact ⟨fun same => ⟨same, same ▸ fits⟩, And.left⟩
  | cons c rest ih =>
    rw [Text.readDigits, Nat.ofDigitChars_cons, Nat.mul_comm 10 start]
    by_cases digit : c.isDigit = true
    · simp only [digitValue?_digit digit, List.forall_mem_cons, digit, true_and]
      by_cases next : start * 10 + (c.toNat - '0'.toNat) ≤ limit
      · rw [if_pos next]
        exact ih next
      · rw [if_neg next]
        refine ⟨nofun, fun ⟨_, sum, within⟩ => (next ?_).elim⟩
        exact Nat.le_trans (le_ofDigitChars rest _) (sum ▸ within)
    · simp only [digitValue?_other digit, List.forall_mem_cons]
      exact ⟨nofun, fun ⟨⟨first, _⟩, _⟩ => (digit first).elim⟩

private theorem readDigits_numeral {limit number : Nat} {overflow : Text.NumberError} {digits : List Char}
    (nonempty : digits ≠ []) :
    Text.readDigits limit overflow 0 digits = .ok number ↔
      Numeral digits ∧ value digits = number ∧ number ≤ limit := by
  rw [readDigits_iff (Nat.zero_le limit)]
  exact ⟨fun ⟨decimal, sum⟩ => ⟨⟨nonempty, decimal⟩, sum⟩, fun ⟨numeral, sum⟩ => ⟨numeral.decimal, sum⟩⟩

theorem Numeral.head_ne {c : Char} {rest : List Char} (numeral : Numeral (c :: rest)) (sign : Char)
    (symbol : sign.isDigit = false) : c ≠ sign := by
  rintro rfl
  rw [numeral.decimal c List.mem_cons_self] at symbol
  cases symbol

theorem readNat_iff {limit number : Nat} {text : List Char} :
    Text.readNat limit text = .ok number ↔ Unsigned text number ∧ number ≤ limit := by
  unfold Text.readNat
  split
  · exact ⟨nofun, fun ⟨written, _⟩ => by cases written with | plain numeral => exact (numeral.nonempty rfl).elim⟩
  · refine ⟨nofun, fun ⟨written, _⟩ => ?_⟩
    cases written with
    | plain numeral => exact (numeral.head_ne '+' rfl rfl).elim
    | plus numeral => exact (numeral.nonempty rfl).elim
  · rename_i digits lone
    rw [readDigits_numeral (lone ·)]
    constructor
    · rintro ⟨numeral, rfl, within⟩
      exact ⟨.plus numeral, within⟩
    · rintro ⟨written, within⟩
      cases written with
      | plain numeral => exact (numeral.head_ne '+' rfl rfl).elim
      | plus numeral => exact ⟨numeral, rfl, within⟩
  · rename_i empty _ signless
    rw [readDigits_numeral empty]
    constructor
    · rintro ⟨numeral, rfl, within⟩
      exact ⟨.plain numeral, within⟩
    · rintro ⟨written, within⟩
      cases written with
      | plain numeral => exact ⟨numeral, rfl, within⟩
      | plus _ => exact (signless _ rfl).elim

theorem Numeral.solid {digits : List Char} (numeral : Numeral digits) {c : Char} (member : c ∈ digits) :
    Text.isWhiteSpace c = false := solid_digit (numeral.decimal c member)

theorem Unsigned.solid {text : List Char} {number : Nat} (written : Unsigned text number) :
    text ≠ [] ∧ ∀ c ∈ text, Text.isWhiteSpace c = false := by
  cases written with
  | plain numeral => exact ⟨numeral.nonempty, fun _ => numeral.solid⟩
  | plus numeral => exact ⟨nofun, List.forall_mem_cons.mpr ⟨by decide, fun _ => numeral.solid⟩⟩

theorem Signed.solid {text : List Char} {number : Int} (written : Signed text number) :
    text ≠ [] ∧ ∀ c ∈ text, Text.isWhiteSpace c = false := by
  cases written with
  | unsigned written => exact written.solid
  | minus numeral => exact ⟨nofun, List.forall_mem_cons.mpr ⟨by decide, fun _ => numeral.solid⟩⟩

private theorem map_ok {ε α β : Type} {f : α → β} {result : Except ε α} {b : β} :
    result.map f = .ok b ↔ ∃ a, result = .ok a ∧ f a = b := by
  cases result with
  | error _ => exact ⟨nofun, fun ⟨_, absent, _⟩ => nomatch absent⟩
  | ok a => simp [Except.map]

section
variable {lowest highest : Nat} {number : Int}

private theorem signed_minus {digits : List Char} :
    Signed ('-' :: digits) number ↔ Numeral digits ∧ -(value digits : Int) = number := by
  constructor
  · rintro (written | numeral)
    · cases written with
      | plain numeral => exact (numeral.head_ne '-' rfl rfl).elim
    · exact ⟨‹_›, rfl⟩
  · rintro ⟨numeral, rfl⟩
    exact .minus numeral

private theorem readInt_minus (digits : List Char) :
    Text.readInt lowest highest ('-' :: digits) = .ok number ↔
      (Numeral digits ∧ -(value digits : Int) = number) ∧ -(lowest : Int) ≤ number := by
  by_cases lone : digits = []
  · subst lone
    exact ⟨nofun, fun ⟨⟨numeral, _⟩, _⟩ => (numeral.nonempty rfl).elim⟩
  have magnitude : Text.readInt lowest highest ('-' :: digits) =
      (Text.readDigits lowest .tooSmall 0 digits).map fun magnitude => -Int.ofNat magnitude := by
    rw [Text.readInt]
    · cases Text.readDigits lowest .tooSmall 0 digits <;> rfl
    · exact lone
  rw [magnitude, map_ok]
  constructor
  · rintro ⟨magnitude, read, rfl⟩
    obtain ⟨numeral, rfl, within⟩ := (readDigits_numeral lone).mp read
    exact ⟨⟨numeral, rfl⟩, Int.neg_le_neg (Int.ofNat_le.mpr within)⟩
  · rintro ⟨⟨numeral, rfl⟩, within⟩
    exact ⟨_, (readDigits_numeral lone).mpr ⟨numeral, rfl, by omega⟩, rfl⟩

theorem readInt_iff {text : List Char} :
    Text.readInt lowest highest text = .ok number ↔
      Signed text number ∧ -(lowest : Int) ≤ number ∧ number ≤ highest := by
  by_cases sign : ∃ digits, text = '-' :: digits
  · obtain ⟨digits, rfl⟩ := sign
    rw [readInt_minus, signed_minus]
    refine and_congr_right fun ⟨_, negative⟩ => (and_iff_left ?_).symm
    omega
  have signless : Text.readInt lowest highest text = (Text.readNat highest text).map Int.ofNat := by
    rw [Text.readInt]
    · exact fun same => sign ⟨_, same⟩
    · exact fun _ same => sign ⟨_, same⟩
  rw [signless, map_ok]
  constructor
  · rintro ⟨magnitude, read, rfl⟩
    obtain ⟨written, within⟩ := readNat_iff.mp read
    exact ⟨.unsigned written, Int.le_trans (by omega) (Int.natCast_nonneg magnitude), Int.ofNat_le.mpr within⟩
  · rintro ⟨written, _, within⟩
    cases written with
    | unsigned written => exact ⟨_, readNat_iff.mpr ⟨written, Int.ofNat_le.mp within⟩, rfl⟩
    | minus _ => exact (sign ⟨_, rfl⟩).elim

end

theorem numeral_toDigits (number : Nat) : Numeral (Nat.toDigits 10 number) where
  nonempty := Nat.toDigits_ne_nil
  decimal _ member := Nat.isDigit_of_mem_toDigits (by decide) (by decide) member

theorem value_toDigits (number : Nat) : value (Nat.toDigits 10 number) = number := Nat.ofDigitChars_ten_toDigits

theorem unsigned_toString (number : Nat) : Unsigned (toString number).toList number := by
  have written := Unsigned.plain (numeral_toDigits number)
  rwa [value_toDigits, ← Nat.toList_repr] at written

theorem signed_toString (number : Int) : Signed (toString number).toList number := by
  rw [Int.toString_eq_repr, Int.repr_eq_if]
  split
  · rename_i positive
    have written := Signed.unsigned (unsigned_toString number.toNat)
    rwa [Int.toNat_of_nonneg positive] at written
  · rename_i negative
    have written := Signed.minus (numeral_toDigits (-number).toNat)
    have same : -((-number).toNat : Int) = number := by omega
    rw [value_toDigits, same] at written
    rwa [String.toList_append, Nat.toList_repr]

end StagedFormat.Proofs.NumberTexts
