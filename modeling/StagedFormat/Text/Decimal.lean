/-! Decimal text of floating-point numbers with three places, rounded from the exact binary value. -/

namespace StagedFormat.Text

/-- The quotient rounded to the nearest whole number; a tie goes to the even one. -/
def roundedQuotient (numerator denominator : Nat) : Nat :=
  let quotient := numerator / denominator
  match compare (2 * (numerator % denominator)) denominator with
  | .lt => quotient
  | .gt => quotient + 1
  | .eq => if quotient % 2 = 0 then quotient else quotient + 1

/-- The whole number of thousandths nearest to `mantissa * 2 ^ (exponent - 1075)`. -/
def thousandths (mantissa exponent : Nat) : Nat :=
  if 1075 ≤ exponent then (mantissa * 1000) <<< (exponent - 1075)
  else roundedQuotient (mantissa * 1000) (1 <<< (1075 - exponent))

def padStart (width : Nat) (digits : String) : String :=
  String.ofList (List.replicate (width - digits.length) '0') ++ digits

/-- The bit of a mantissa that is not stored. -/
def hiddenBit : Nat := 0x10000000000000

end StagedFormat.Text

open StagedFormat.Text in
/-- Three places; the sign of zero is kept, and what is no number is named. -/
def Float.threePlaces (value : Float) : String :=
  let bits := value.toBits.toNat
  let sign := if bits >>> 63 = 1 then "-" else ""
  let exponent := (bits >>> 52) % 2048
  let fraction := bits % hiddenBit
  if exponent = 2047 then
    if fraction = 0 then sign ++ "inf" else "NaN"
  else
    let parts :=
      if exponent = 0 then thousandths fraction 1 else thousandths (hiddenBit + fraction) exponent
    sign ++ (parts / 1000).repr ++ "." ++ padStart 3 (parts % 1000).repr
