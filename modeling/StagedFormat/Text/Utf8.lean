/-! Reading bytes as UTF-8, strictly or with replacement characters. -/

namespace StagedFormat.Text

/-- What is still expected of a character whose first bytes were read: `value` holds its bits so far,
the next byte lies between `low` and `high`, and `more` bytes follow that one. -/
structure Unfinished where
  value : Nat
  low : UInt8
  high : UInt8
  more : Nat

def replacement : Char := '\uFFFD'

/-- A byte outside a character: a character of one byte, the start of a longer one, or neither. -/
def start (byte : UInt8) : List Char × Option Unfinished :=
  let expect (value : UInt8) (low high : UInt8) (more : Nat) :=
    ([], some { value := value.toNat, low, high, more })
  if byte < 0x80 then ([Char.ofNat byte.toNat], none)
  else if byte < 0xC2 then ([replacement], none)
  else if byte < 0xE0 then expect (byte - 0xC0) 0x80 0xBF 0
  else if byte = 0xE0 then expect 0 0xA0 0xBF 1
  else if byte = 0xED then expect 0xD 0x80 0x9F 1
  else if byte < 0xF0 then expect (byte - 0xE0) 0x80 0xBF 1
  else if byte = 0xF0 then expect 0 0x90 0xBF 2
  else if byte < 0xF4 then expect (byte - 0xF0) 0x80 0xBF 2
  else if byte = 0xF4 then expect 4 0x80 0x8F 2
  else ([replacement], none)

/-- Each maximal start of a character that does not complete becomes one replacement character. -/
def decodeFrom : Option Unfinished → List UInt8 → List Char
  | none, [] => []
  | some _, [] => [replacement]
  | none, byte :: rest =>
    let (read, begun) := start byte
    read ++ decodeFrom begun rest
  | some begun, byte :: rest =>
    if begun.low ≤ byte && byte ≤ begun.high then
      let value := begun.value * 64 + (byte - 0x80).toNat
      match begun.more with
      | 0 => Char.ofNat value :: decodeFrom none rest
      | more + 1 => decodeFrom (some { value, low := 0x80, high := 0xBF, more }) rest
    else
      let (read, begun) := start byte
      replacement :: (read ++ decodeFrom begun rest)

/-- The text of bytes, with U+FFFD for each maximal invalid part. -/
def decodeLossy (bytes : ByteArray) : String :=
  match String.fromUTF8? bytes with
  | some text => text
  | none => String.ofList (decodeFrom none bytes.data.toList)

end StagedFormat.Text
