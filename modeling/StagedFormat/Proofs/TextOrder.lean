import Mathlib.Tactic.SplitIfs
import StagedFormat.Proofs.ByteTexts

/-! The order of texts. Texts are in the order of their characters, and so are their bytes: the first byte of
a character tells its length, and longer characters have greater first bytes. -/

namespace StagedFormat.Proofs.TextOrder
open ByteTexts

def BytesBefore : List UInt8 → List UInt8 → Prop := List.Lex fun one other => one.toNat < other.toNat

def Ascend (a b : String) : Prop := a = b ∨ BytesBefore a.toUTF8.data.toList b.toUTF8.data.toList

private theorem byte_before {one other : Nat} {front back : List UInt8} (small : other < 256)
    (before : one < other ∨ one = other ∧ BytesBefore front back) :
    BytesBefore (UInt8.ofNat one :: front) (UInt8.ofNat other :: back) := by
  rcases before with less | ⟨rfl, before⟩
  · refine .rel ?_
    rw [UInt8.toNat_ofNat', UInt8.toNat_ofNat']
    omega
  · exact .cons before

private theorem append_before (shared : List UInt8) {front back : List UInt8} (before : BytesBefore front back) :
    BytesBefore (shared ++ front) (shared ++ back) := by
  induction shared with
  | nil => exact before
  | cons byte shared ih => exact .cons ih

section
variable {one other : Nat} {front back : List UInt8}

/-! The bytes after the first one have six bits of the character each. -/

private theorem last_before (less : one < other) (same : one / 64 = other / 64) :
    BytesBefore (UInt8.ofNat (one % 64 + 128) :: front) (UInt8.ofNat (other % 64 + 128) :: back) :=
  byte_before (by omega) (.inl (by omega))

private theorem lastTwo_before (less : one < other) (same : one / 4096 = other / 4096) :
    BytesBefore (UInt8.ofNat (one / 64 % 64 + 128) :: UInt8.ofNat (one % 64 + 128) :: front)
      (UInt8.ofNat (other / 64 % 64 + 128) :: UInt8.ofNat (other % 64 + 128) :: back) := by
  refine byte_before (by omega) ?_
  by_cases higher : one / 64 = other / 64
  · exact .inr ⟨by rw [higher], last_before less higher⟩
  · exact .inl (by omega)

private theorem lastThree_before (less : one < other) (same : one / 262144 = other / 262144) :
    BytesBefore
      (UInt8.ofNat (one / 4096 % 64 + 128) :: UInt8.ofNat (one / 64 % 64 + 128) ::
        UInt8.ofNat (one % 64 + 128) :: front)
      (UInt8.ofNat (other / 4096 % 64 + 128) :: UInt8.ofNat (other / 64 % 64 + 128) ::
        UInt8.ofNat (other % 64 + 128) :: back) := by
  refine byte_before (by omega) ?_
  by_cases higher : one / 4096 = other / 4096
  · exact .inr ⟨by rw [higher], lastTwo_before less higher⟩
  · exact .inl (by omega)

end

/-- Whatever comes after them, the bytes of a lesser character come first. -/
theorem char_before {c d : Char} (less : c < d) (front back : List UInt8) :
    BytesBefore (String.utf8EncodeChar c ++ front) (String.utf8EncodeChar d ++ back) := by
  have less : c.val.toNat < d.val.toNat := less
  have most : d.val.toNat < 0x110000 := by
    rcases d.valid with small | ⟨_, large⟩
    · exact Nat.lt_trans small (by decide)
    · exact large
  rw [String.utf8EncodeChar.eq_1, String.utf8EncodeChar.eq_1]
  generalize c.val.toNat = one at less
  generalize d.val.toNat = other at less most
  -- Of the same length, the characters part at the first byte or behind it; of others, at the first byte.
  split
  · split_ifs
    all_goals exact byte_before (by omega) (.inl (by omega))
  split
  · rw [if_neg (by omega)]
    split
    · refine byte_before (by omega) ?_
      by_cases higher : one / 64 = other / 64
      · exact .inr ⟨by rw [higher], last_before less higher⟩
      · exact .inl (by omega)
    split_ifs
    all_goals exact byte_before (by omega) (.inl (by omega))
  split
  · rw [if_neg (by omega), if_neg (by omega)]
    split
    · refine byte_before (by omega) ?_
      by_cases higher : one / 4096 = other / 4096
      · exact .inr ⟨by rw [higher], lastTwo_before less higher⟩
      · exact .inl (by omega)
    · exact byte_before (by omega) (.inl (by omega))
  · rw [if_neg (by omega), if_neg (by omega), if_neg (by omega)]
    refine byte_before (by omega) ?_
    by_cases higher : one / 262144 = other / 262144
    · exact .inr ⟨by rw [higher], lastThree_before less higher⟩
    · exact .inl (by omega)

private theorem characters_before {a b : List Char} (before : List.Lex (· < ·) a b) :
    BytesBefore (a.flatMap String.utf8EncodeChar) (b.flatMap String.utf8EncodeChar) := by
  induction before with
  | @nil c rest =>
    obtain ⟨byte, bytes, same⟩ := List.exists_cons_of_ne_nil (String.utf8EncodeChar_ne_nil (c := c))
    rw [List.flatMap_cons, same]
    exact .nil
  | cons _ ih =>
    rw [List.flatMap_cons, List.flatMap_cons]
    exact append_before _ ih
  | rel less =>
    rw [List.flatMap_cons, List.flatMap_cons]
    exact char_before less _ _

theorem ascend_of_compare {a b : String} (least : compare a b ≠ .gt) : Ascend a b := by
  cases compared : compare a b with
  | lt =>
    have less : a < b := compareOfLessAndEq_eq_lt.mp compared
    right
    rw [toList_toUTF8, toList_toUTF8]
    exact characters_before less
  | eq => exact .inl (Std.LawfulEqOrd.eq_of_compare compared)
  | gt => exact (least compared).elim

end StagedFormat.Proofs.TextOrder
