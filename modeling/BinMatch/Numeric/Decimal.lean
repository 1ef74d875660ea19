import BinMatch.Numeric.Binary64
import BinMatch.Text.Scanner

/-!
# Decimal numbers

Readers for decimal integers and decimal fractions.  A single underscore may
stand between two digits.
-/

namespace BinMatch.Numeric.Decimal

open Text

def value (digits : List Char) : Nat :=
  digits.foldl (fun n c => 10 * n + (c.toNat - '0'.toNat)) 0

/-- No underscore at either end and no two in a row. -/
def wellSeparated (text : List Char) : Bool :=
  text.head? ≠ some '_' && text.getLast? ≠ some '_' &&
    !(text.zip text.tail).contains ('_', '_')

/-- The text without its underscores, if they stand as they may. -/
def joined? (text : List Char) : Option (List Char) :=
  if wellSeparated text then some (text.filter (· ≠ '_')) else none

def sign : Scanner Bool := do
  if ← Scanner.accept "-" then pure true
  else do
    let _ ← Scanner.accept "+"
    pure false

def exponent : Scanner Int := do
  match ← Scanner.peek? with
  | some 'e' | some 'E' => do
    let _ ← Scanner.next
    let negative ← sign
    let digits ← Scanner.takeWhile Char.isDigit
    if digits.isEmpty then failure
    let n : Int := value digits
    pure (if negative then -n else n)
  | _ => pure 0

/-- Digits around a point, at least one of them, and an exponent. -/
def magnitude (negative : Bool) : Scanner Float := do
  let whole ← Scanner.takeWhile Char.isDigit
  let fraction ←
    if ← Scanner.accept "." then Scanner.takeWhile Char.isDigit else pure []
  if whole.isEmpty && fraction.isEmpty then failure
  let e ← exponent
  pure (nearestDecimal negative (value (whole ++ fraction)) (e - fraction.length))

/-- A decimal fraction or the name of a special number, in any case. -/
def number : Scanner Binary64 := do
  let negative ← sign
  let text ← get
  let name := String.ofList (text.map Char.toLower)
  if name = "inf" || name = "infinity" then
    set ([] : List Char)
    pure (.number (if negative then -(1.0 / 0.0) else 1.0 / 0.0))
  else if name = "nan" then
    set ([] : List Char)
    pure (.notANumber negative)
  else .number <$> magnitude negative

/-- The number that a text as a whole stands for.  Blanks around it are left out
only where no underscores are. -/
def binary64? (text : List Char) : Option Binary64 :=
  (Scanner.readAll number (Blank.trim Blank.isSpace text)).or
    ((joined? text).bind (Scanner.readAll number))

inductive IntegerFault where
  | malformed
  /-- More characters than `longestInteger`. -/
  | tooLong
  deriving DecidableEq, Repr

/-- Integers of more characters are not read. -/
def longestInteger : Nat := 4300

def isPositiveDigit (c : Char) : Bool :=
  '1' ≤ c && c ≤ '9'

/-- A minus sign or none, and digits of which the first one of several is not
zero. -/
def plainInteger (text : List Char) : Except IntegerFault Int :=
  let negative := text.head? = some '-'
  let body := if negative then text.drop 1 else text
  let digits := body.takeWhile Char.isDigit
  let rest := body.dropWhile Char.isDigit
  if !(digits = ['0'] || digits.head?.any isPositiveDigit) then .error .malformed
  else if longestInteger + rest.length < text.length then .error .tooLong
  else if !rest.isEmpty then .error .malformed
  else .ok (if negative then -(value digits) else value digits)

/-- The text without its leading zeros and the underscores between them.  One zero
stays in front of a point or where nothing else is left; a minus sign may follow. -/
def withoutLeadingZeros? (text : List Char) : Option (List Char) :=
  match text with
  | '0' :: _ =>
    let isLeading (c : Char) : Bool := c = '0' || c = '_'
    let last := (text.takeWhile isLeading).getLast?.toList
    match text.dropWhile isLeading with
    | [] => some last
    | c :: rest =>
      if c = '.' then some (last ++ c :: rest)
      else if c = '-' || isPositiveDigit c then some (c :: rest)
      else none
  | c :: _ => if c = '-' || isPositiveDigit c then some text else none
  | [] => none

/-- The text in front of a point with nothing but zeros behind it. -/
def withoutZeroFraction (text : List Char) : List Char :=
  match text.dropWhile (· ≠ '.') with
  | _ :: c :: zeros =>
    if (c :: zeros).all (· = '0') then text.takeWhile (· ≠ '.') else text
  | _ => text

/-- The text without a plus sign, which no minus sign may follow. -/
def withoutPlus? : List Char → Option (List Char)
  | '+' :: '-' :: _ => none
  | '+' :: rest => some rest
  | text => some text

/-- The integer that a text as a whole stands for, apart from blanks around it.
Leading zeros, and a point and zeros behind the digits, change nothing. -/
def integer (text : List Char) : Except IntegerFault Int :=
  match (withoutPlus? (Blank.trim Blank.isSpace text)).bind withoutLeadingZeros?
    with
  | none => .error .malformed
  | some text =>
    let whole := withoutZeroFraction text
    plainInteger ((joined? whole).getD whole)

end BinMatch.Numeric.Decimal
