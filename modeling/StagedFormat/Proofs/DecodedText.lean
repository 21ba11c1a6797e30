import Mathlib.Tactic.IntervalCases
import StagedFormat.Proofs.ByteTexts

/-! Reading bytes with replacement characters gives back every text that is written in front of them,
whatever the bytes after it are. -/

namespace StagedFormat.Proofs.DecodedText
open StagedFormat.Text ByteTexts

/-! ### The first byte of a character -/

private theorem start_single {value : Nat} (small : value ≤ 127) :
    start (UInt8.ofNat value) = ([Char.ofNat value], none) := by
  interval_cases value <;> rfl

private theorem start_double {bits : Nat} (least : 2 ≤ bits) (most : bits < 32) :
    start (UInt8.ofNat (bits + 192)) = ([], some { value := bits, low := 0x80, high := 0xBF, more := 0 }) := by
  interval_cases bits <;> rfl

/-- The second byte of three tells short forms and surrogates from characters. -/
theorem start_triple {bits : Nat} (most : bits < 16) :
    start (UInt8.ofNat (bits + 224)) =
      ([], some { value := bits, low := if bits = 0 then 0xA0 else 0x80,
                  high := if bits = 13 then 0x9F else 0xBF, more := 1 }) := by
  interval_cases bits <;> rfl

private theorem start_quadruple {bits : Nat} (most : bits < 5) :
    start (UInt8.ofNat (bits + 240)) =
      ([], some { value := bits, low := if bits = 0 then 0x90 else 0x80,
                  high := if bits = 4 then 0x8F else 0xBF, more := 2 }) := by
  interval_cases bits <;> rfl

/-! ### The bytes after it -/

/-- What is read where so many bytes of a character are still to come. -/
def onward (value : Nat) : Nat → List UInt8 → List Char
  | 0, rest => Char.ofNat value :: decodeFrom none rest
  | more + 1, rest => decodeFrom (some { value, low := 0x80, high := 0xBF, more }) rest

private theorem decodeFrom_within {value more bits : Nat} {low high : UInt8} (small : bits < 64)
    (least : low.toNat ≤ bits + 128) (most : bits + 128 ≤ high.toNat) (rest : List UInt8) :
    decodeFrom (some { value, low, high, more }) (UInt8.ofNat (bits + 128) :: rest) =
      onward (value * 64 + bits) more rest := by
  have byte : (UInt8.ofNat (bits + 128)).toNat = bits + 128 := by
    rw [UInt8.toNat_ofNat']
    omega
  have within : (low ≤ UInt8.ofNat (bits + 128) && UInt8.ofNat (bits + 128) ≤ high) = true := by
    simp only [Bool.and_eq_true, decide_eq_true_eq, UInt8.le_iff_toNat_le, byte]
    exact ⟨least, most⟩
  have left : (UInt8.ofNat (bits + 128) - 0x80).toNat = bits := by
    rw [UInt8.toNat_sub_of_le]
    · rw [byte]
      exact Nat.add_sub_cancel bits 128
    · rw [UInt8.le_iff_toNat_le, byte]
      exact Nat.le_add_left 128 bits
  cases more with
  | zero => rw [decodeFrom, if_pos within, left, onward]
  | succ more => rw [decodeFrom, if_pos within, left, onward]

private theorem onward_next (value more : Nat) {bits : Nat} (small : bits < 64) (rest : List UInt8) :
    onward value (more + 1) (UInt8.ofNat (bits + 128) :: rest) = onward (value * 64 + bits) more rest := by
  apply decodeFrom_within small
  · exact Nat.le_add_left 128 bits
  · exact Nat.add_le_add_right (Nat.le_of_lt_succ small) 128

private theorem decodeFrom_start {byte : UInt8} {read : List Char} {begun : Option Unfinished}
    (started : start byte = (read, begun)) (rest : List UInt8) :
    decodeFrom none (byte :: rest) = read ++ decodeFrom begun rest := by
  rw [decodeFrom, started]

/-! ### Characters of several bytes -/

section
variable {first second third fourth : Nat}

private theorem decodeFrom_double (least : 2 ≤ first) (most : first < 32) (small : second < 64) (rest : List UInt8) :
    decodeFrom none (UInt8.ofNat (first + 192) :: UInt8.ofNat (second + 128) :: rest) =
      Char.ofNat (first * 64 + second) :: decodeFrom none rest := by
  rw [decodeFrom_start (start_double least most)]
  exact onward_next first 0 small rest

private theorem decodeFrom_triple (most : first < 16) (long : first = 0 → 32 ≤ second)
    (plain : first = 13 → second < 32) (small : second < 64) (last : third < 64) (rest : List UInt8) :
    decodeFrom none (UInt8.ofNat (first + 224) :: UInt8.ofNat (second + 128) ::
        UInt8.ofNat (third + 128) :: rest) =
      Char.ofNat ((first * 64 + second) * 64 + third) :: decodeFrom none rest := by
  rw [decodeFrom_start (start_triple most), List.nil_append, decodeFrom_within small, onward_next _ 0 last,
    onward]
  · split
    · next short => exact Nat.add_le_add_right (long short) 128
    · exact Nat.le_add_left 128 second
  · split
    · next surrogate => exact Nat.add_le_add_right (Nat.le_of_lt_succ (plain surrogate)) 128
    · exact Nat.add_le_add_right (Nat.le_of_lt_succ small) 128

private theorem decodeFrom_quadruple (most : first < 5) (long : first = 0 → 16 ≤ second)
    (plane : first = 4 → second < 16) (small : second < 64) (next : third < 64) (last : fourth < 64)
    (rest : List UInt8) :
    decodeFrom none (UInt8.ofNat (first + 240) :: UInt8.ofNat (second + 128) ::
        UInt8.ofNat (third + 128) :: UInt8.ofNat (fourth + 128) :: rest) =
      Char.ofNat (((first * 64 + second) * 64 + third) * 64 + fourth) :: decodeFrom none rest := by
  rw [decodeFrom_start (start_quadruple most), List.nil_append, decodeFrom_within small,
    onward_next _ 1 next, onward_next _ 0 last, onward]
  · split
    · next short => exact Nat.add_le_add_right (long short) 128
    · exact Nat.le_add_left 128 second
  · split
    · next high => exact Nat.add_le_add_right (Nat.le_of_lt_succ (plane high)) 128
    · exact Nat.add_le_add_right (Nat.le_of_lt_succ small) 128

end

private theorem decodeFrom_char (c : Char) (rest : List UInt8) :
    decodeFrom none (String.utf8EncodeChar c ++ rest) = c :: decodeFrom none rest := by
  have value : Char.ofNat c.val.toNat = c := Char.ofNat_toNat c
  have valid : c.val.toNat < 0xD800 ∨ 0xDFFF < c.val.toNat ∧ c.val.toNat < 0x110000 := c.valid
  rw [String.utf8EncodeChar.eq_1]
  generalize c.val.toNat = number at value valid
  subst value
  split
  · next small => exact decodeFrom_start (start_single small) rest
  split
  · next large small =>
    have whole : number / 64 % 32 * 64 + number % 64 = number := by omega
    refine (decodeFrom_double ?_ ?_ ?_ rest).trans (by rw [whole])
    all_goals omega
  split
  · next large small =>
    have whole : (number / 4096 % 16 * 64 + number / 64 % 64) * 64 + number % 64 = number := by omega
    refine (decodeFrom_triple ?_ ?_ ?_ ?_ ?_ rest).trans (by rw [whole])
    all_goals omega
  · next large =>
    have whole : ((number / 262144 % 8 * 64 + number / 4096 % 64) * 64 + number / 64 % 64) * 64 +
        number % 64 = number := by omega
    refine (decodeFrom_quadruple ?_ ?_ ?_ ?_ ?_ ?_ rest).trans (by rw [whole])
    all_goals omega

/-! ### Texts -/

private theorem decodeFrom_characters (text : List Char) (rest : List UInt8) :
    decodeFrom none (text.flatMap String.utf8EncodeChar ++ rest) = text ++ decodeFrom none rest := by
  induction text with
  | nil => rfl
  | cons c text ih => rw [List.flatMap_cons, List.append_assoc, decodeFrom_char, ih, List.cons_append]

/-- Bytes that are text are no exception. -/
theorem toList_decodeLossy (bytes : ByteArray) :
    (decodeLossy bytes).toList = decodeFrom none bytes.data.toList := by
  rw [decodeLossy]
  split
  · next text decoded =>
    have whole := decodeFrom_characters text.toList []
    rw [fromUTF8?_eq_some.mp decoded, toList_toUTF8]
    simpa [decodeFrom] using whole.symm
  · exact String.toList_ofList

/-- A text is read back, and reading starts anew behind it. -/
theorem decodeLossy_append (text : String) (rest : ByteArray) :
    (decodeLossy (text.toUTF8 ++ rest)).toList = text.toList ++ (decodeLossy rest).toList := by
  rw [toList_decodeLossy, toList_decodeLossy, ByteArray.data_append, Array.toList_append, toList_toUTF8,
    decodeFrom_characters]

/-- Where a byte of zero or nothing comes next, so does its character or nothing. -/
theorem head_decodeLossy {bytes : ByteArray} (ends : ∀ byte ∈ bytes.data.toList.head?, byte = 0) :
    ∀ c ∈ (decodeLossy bytes).toList.head?, c = '\x00' := by
  rw [toList_decodeLossy]
  cases given : bytes.data.toList with
  | nil =>
    rw [decodeFrom]
    exact nofun
  | cons byte rest =>
    rw [given] at ends
    obtain rfl := ends byte rfl
    have started : start 0 = (['\x00'], none) := rfl
    rw [decodeFrom_start started]
    intro c first
    exact (Option.some.inj first).symm

end StagedFormat.Proofs.DecodedText
