import BinMatch.Numeric.Binary64

/-!
# Notation

How numbers, lines and marked-up text are written down.
-/

/-! ## Hexadecimal text

Addresses are written as `0x` followed by uppercase digits; the sign of a
negative address stands between the two.  A difference carries its sign in
front of the mark, also when it is zero. -/

namespace BinMatch.Text.Hex

/-- The uppercase base-sixteen digits of `n`, most significant digit first. -/
def digits (n : Nat) : List Char :=
  (Nat.toDigits 16 n).map Char.toUpper

/-- The digits of `v` after its sign, with no mark in front. -/
def signed (v : Int) : String :=
  let body := String.ofList (digits v.natAbs)
  if v < 0 then "-" ++ body else body

def address (v : Int) : String :=
  "0x" ++ signed v

def delta (v : Int) : String :=
  (if v < 0 then "-0x" else "+0x") ++ String.ofList (digits v.natAbs)

end BinMatch.Text.Hex

/-! ## Percentages with one decimal

A ratio is shown as a percentage.  The product with one hundred is a binary64
number; its exact value is rounded to tenths, and a tie goes to the even tenth. -/

namespace BinMatch.Text.Percent

open Numeric

/-- The quotient of two naturals rounded to the nearest one, ties to even. -/
def roundQuotient (num den : Nat) : Nat :=
  let q := num / den
  let twice := 2 * (num % den)
  if twice < den || (twice = den && q % 2 = 0) then q else q + 1

def tenths (d : FiniteFloat) : Nat :=
  if 0 ≤ d.exponent then 10 * d.significand * Nat.pow 2 d.exponent.toNat
  else roundQuotient (10 * d.significand) (Nat.pow 2 (-d.exponent).toNat)

def ofTenths (n : Nat) : String :=
  toString (n / 10) ++ "." ++ toString (n % 10)

def ofRatio (ratio : Float) : String :=
  match FiniteFloat.ofFloat? (ratio * 100) with
  | some d => ofTenths (tenths d) ++ "%"
  | none => "-"

end BinMatch.Text.Percent

/-! ## Markup entities

The five characters that markup reserves are written as entities, so that text
placed in a cell can neither open nor close an element. -/

namespace BinMatch.Text.Entity

def ofChar : Char → List Char
  | '&' => "&amp;".toList
  | '<' => "&lt;".toList
  | '>' => "&gt;".toList
  | '"' => "&quot;".toList
  | '\'' => "&#x27;".toList
  | c => [c]

def escape (text : String) : String :=
  String.ofList (text.toList.flatMap ofChar)

end BinMatch.Text.Entity

/-! ## Lines of a text

A line ends at any of the mandatory line breaks; a carriage return and the line
feed after it end one line together.  Text after the last break is a line of its
own, and a text that ends in a break has no empty last line. -/

namespace BinMatch.Text.Line

def isBreak (c : Char) : Bool :=
  c = '\n' || c = '\r' || c = '\x0b' || c = '\x0c' ||
    c = '\x1c' || c = '\x1d' || c = '\x1e' || c = '\x85' ||
    c = '\u2028' || c = '\u2029'

/-- Lines of the text whose current line holds `read`, last character first. -/
def splitAfter (read : List Char) : List Char → List (List Char)
  | [] => if read.isEmpty then [] else [read.reverse]
  | '\r' :: '\n' :: rest => read.reverse :: splitAfter [] rest
  | c :: rest =>
    if isBreak c then read.reverse :: splitAfter [] rest
    else splitAfter (c :: read) rest

def split (text : String) : List String :=
  (splitAfter [] text.toList).map String.ofList

def terminated (lines : List String) : String :=
  String.join (lines.map (· ++ "\n"))

end BinMatch.Text.Line
