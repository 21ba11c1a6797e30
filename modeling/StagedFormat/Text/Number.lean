/-! Reading whole numbers that must not pass a limit, and the errors of reading them. -/

namespace StagedFormat.Text

inductive NumberError where
  | empty
  | invalidDigit
  | tooLarge
  | tooSmall
  deriving DecidableEq, Repr

def NumberError.message : NumberError → String
  | .empty => "cannot parse integer from empty string"
  | .invalidDigit => "invalid digit found in string"
  | .tooLarge => "number too large to fit in target type"
  | .tooSmall => "number too small to fit in target type"

def digitValue? (c : Char) : Option Nat :=
  if '0' ≤ c ∧ c ≤ '9' then some (c.toNat - '0'.toNat) else none

/-- Continues a number from `value`; the first fault from the left is the one reported. -/
def readDigits (limit : Nat) (overflow : NumberError) (value : Nat) : List Char → Except NumberError Nat
  | [] => .ok value
  | c :: rest =>
    match digitValue? c with
    | none => .error .invalidDigit
    | some digit =>
      if value * 10 + digit ≤ limit then readDigits limit overflow (value * 10 + digit) rest
      else .error overflow

/-- A number up to `limit`, with an optional plus sign. -/
def readNat (limit : Nat) : List Char → Except NumberError Nat
  | [] => .error .empty
  | ['+'] => .error .invalidDigit
  | '+' :: digits => readDigits limit .tooLarge 0 digits
  | digits => readDigits limit .tooLarge 0 digits

/-- A number from `-lowest` to `highest`, with an optional sign. -/
def readInt (lowest highest : Nat) : List Char → Except NumberError Int
  | ['-'] => .error .invalidDigit
  | '-' :: digits => (readDigits lowest .tooSmall 0 digits).map fun value => -(value : Int)
  | text => (readNat highest text).map Int.ofNat

end StagedFormat.Text
