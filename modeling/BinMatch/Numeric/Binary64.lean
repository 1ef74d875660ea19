/-!
# Binary64 numbers

The exact value of a finite binary64 number, the nearest binary64 number to a decimal
one, and the special values beside the numbers.
-/

namespace BinMatch.Numeric

/-- The number `significand * 2 ^ exponent`, with a sign. -/
structure FiniteFloat where
  negative : Bool
  significand : Nat
  exponent : Int
  deriving DecidableEq, Repr

namespace FiniteFloat

/-- The place value of the lowest exponent bit; the fraction lies below it. -/
def exponentUnit : Nat := 0x10000000000000

def signUnit : Nat := 0x8000000000000000

/-- The exact value of a number given by its binary64 bits, if it is finite. -/
def ofBits? (bits : Nat) : Option FiniteFloat :=
  let field := bits / exponentUnit % 2048
  let fraction := bits % exponentUnit
  if field = 2047 then none
  else
    some
      { negative := signUnit ≤ bits
        significand := if field = 0 then fraction else exponentUnit + fraction
        exponent := (max field 1 : Nat) - 1075 }

def ofFloat? (x : Float) : Option FiniteFloat :=
  ofBits? x.toBits.toNat

def toInt? (d : FiniteFloat) : Option Int :=
  let signed (n : Nat) : Int := if d.negative then -n else n
  if 0 ≤ d.exponent then
    some (signed (d.significand * Nat.pow 2 d.exponent.toNat))
  else
    let den := Nat.pow 2 (-d.exponent).toNat
    if d.significand % den = 0 then some (signed (d.significand / den)) else none

end FiniteFloat

/-- A binary64 number.  The special values that are no numbers cannot be told apart
by comparing them, but each of them has a sign. -/
inductive Binary64 where
  | number (x : Float)
  | notANumber (negative : Bool)

namespace Binary64

def toFloat : Binary64 → Float
  | .number x => x
  | .notANumber _ => 0.0 / 0.0

def bits : Binary64 → UInt64
  | .number x => x.toBits
  | .notANumber true => 0xFFF8000000000000
  | .notANumber false => 0x7FF8000000000000

end Binary64

/-- Beyond this decimal exponent a number overflows, or vanishes below it. -/
def decimalBound : Int := 400

def nearestDecimal (negative : Bool) (digits : Nat) (exponent : Int) : Float :=
  let leading : Int := (Nat.toDigits 10 digits).length + exponent
  let magnitude : Float :=
    if digits = 0 || leading < -decimalBound then 0.0
    else if decimalBound < leading then 1.0 / 0.0
    else Float.ofScientific digits (exponent < 0) exponent.natAbs
  if negative then -magnitude else magnitude

end BinMatch.Numeric
