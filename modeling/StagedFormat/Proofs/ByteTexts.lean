import StagedFormat.Path.Basic

/-! Texts as strings of bytes. A text is shown as it is. Bytes that are no text are shown with replacement
characters, and then different ones may look the same. -/

namespace StagedFormat.Proofs.ByteTexts
open StagedFormat

theorem fromUTF8?_eq_some {bytes : ByteArray} {text : String} :
    String.fromUTF8? bytes = some text ↔ bytes = text.toUTF8 := by
  unfold String.fromUTF8?
  constructor
  · intro decoded
    split at decoded
    · cases decoded
      rfl
    · cases decoded
  · rintro rfl
    exact dif_pos text.isValidUTF8

theorem toList_toUTF8 (text : String) :
    text.toUTF8.data.toList = text.toList.flatMap String.utf8EncodeChar := by
  rw [String.toUTF8_eq_toByteArray, ← String.utf8Encode_toList, List.utf8Encode, List.data_toByteArray]

theorem decodeLossy_toUTF8 (text : String) : Text.decodeLossy text.toUTF8 = text := by
  rw [Text.decodeLossy, fromUTF8?_eq_some.mpr rfl]

theorem ofText_append (front back : String) :
    ByteString.ofText (front ++ back) = ByteString.ofText front ++ ByteString.ofText back := by
  simp only [ByteString.ext_iff, ByteString.bytes_append, ByteString.ofText, toList_toUTF8, String.toList_append,
    List.flatMap_append]

@[simp] theorem text_ofText (text : String) : (ByteString.ofText text).text = text := decodeLossy_toUTF8 text

theorem text?_eq_some {string : ByteString} {text : String} : string.text? = some text ↔ string = text := by
  rw [ByteString.text?, fromUTF8?_eq_some, ByteString.ext_iff, ByteString.packed, ByteArray.ext_iff,
    ← Array.toList_inj]
  rfl

def IsText (string : ByteString) : Prop := ∃ text : String, string = text

private theorem isText_iff {string : ByteString} : IsText string ↔ string.text?.isSome = true := by
  simp only [IsText, Option.isSome_iff_exists, text?_eq_some]

instance (string : ByteString) : Decidable (IsText string) := decidable_of_iff _ isText_iff.symm

theorem IsText.shown {string : ByteString} (legible : IsText string) : ByteString.ofText string.text = string := by
  obtain ⟨text, rfl⟩ := legible
  rw [text_ofText]

/-- A byte below 128 is met only as the character it is. -/
theorem mem_utf8EncodeChar {c own : Char} (ascii : c.val.toNat < 128) :
    c.toUInt8 ∈ String.utf8EncodeChar own ↔ c = own := by
  have byte : c.toUInt8.toNat = c.val.toNat := Nat.mod_eq_of_lt (Nat.lt_of_lt_of_le ascii (by decide))
  have bytes (number : Nat) : c.toUInt8 = UInt8.ofNat number ↔ c.val.toNat = number % 256 := by
    rw [← UInt8.toNat_inj, byte, UInt8.toNat_ofNat']
  rw [String.utf8EncodeChar.eq_1, Char.ext_iff, ← UInt32.toNat_inj]
  split
  · rw [List.mem_singleton, bytes]
    omega
  split
  · simp only [List.mem_cons, List.not_mem_nil, or_false, bytes]
    omega
  split
  all_goals
    simp only [List.mem_cons, List.not_mem_nil, or_false, bytes]
    omega

theorem mem_ofText {c : Char} (ascii : c.val.toNat < 128) {text : String} :
    c.toUInt8 ∈ (ByteString.ofText text).bytes ↔ c ∈ text.toList := by
  simp only [ByteString.ofText, toList_toUTF8, List.mem_flatMap, mem_utf8EncodeChar ascii]
  simp

end StagedFormat.Proofs.ByteTexts
