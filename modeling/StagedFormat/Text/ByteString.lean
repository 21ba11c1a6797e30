import StagedFormat.Text.Utf8

/-! Strings of bytes: what file names and arguments are made of. Every text is one, by its UTF-8 form, but not every
string of bytes is a text. -/

namespace StagedFormat

structure ByteString where
  bytes : List UInt8
  deriving DecidableEq, Repr, Inhabited, Hashable

attribute [ext] ByteString

namespace ByteString

def ofText (text : String) : ByteString := ⟨text.toUTF8.data.toList⟩

instance : Coe String ByteString := ⟨ofText⟩

instance : Append ByteString := ⟨fun front back => ⟨front.bytes ++ back.bytes⟩⟩

theorem bytes_inj {one other : ByteString} : one.bytes = other.bytes ↔ one = other := ByteString.ext_iff.symm

@[simp] theorem bytes_empty : (ofText "").bytes = [] := rfl

@[simp] theorem ofText_inj {one other : String} : ofText one = ofText other ↔ one = other := by
  simp [ofText, ByteString.ext_iff, ← ByteArray.ext_iff, String.toByteArray_inj]

@[simp] theorem mk_nil : (⟨[]⟩ : ByteString) = "" := rfl

theorem bytes_eq_nil {string : ByteString} : string.bytes = [] ↔ string = "" := @bytes_inj string (ofText "")

@[simp] theorem bytes_append (front back : ByteString) : (front ++ back).bytes = front.bytes ++ back.bytes := rfl

@[simp] theorem append_empty (string : ByteString) : string ++ ofText "" = string := ByteString.ext (List.append_nil _)

@[simp] theorem empty_append (string : ByteString) : ofText "" ++ string = string := rfl

@[simp] theorem append_eq_empty {front back : ByteString} : front ++ back = ofText "" ↔ front = "" ∧ back = "" := by
  simp [← bytes_eq_nil]

theorem append_assoc (first second third : ByteString) : first ++ second ++ third = first ++ (second ++ third) :=
  ByteString.ext (List.append_assoc _ _ _)

/-- Byte by byte. -/
instance : Ord ByteString := ⟨fun one other => compare one.bytes other.bytes⟩

def packed (string : ByteString) : ByteArray := ⟨string.bytes.toArray⟩

/-- The text that shows the bytes; where they are no text, it has replacement characters. -/
def text (string : ByteString) : String := Text.decodeLossy string.packed

/-- The text whose UTF-8 form the bytes are, if they are one. -/
def text? (string : ByteString) : Option String := String.fromUTF8? string.packed

end ByteString

end StagedFormat
