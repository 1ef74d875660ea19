import BinMatch.Numeric.Decimal
import BinMatch.Text.Scanner
import BinMatch.Toml.Value

/-!
# Lexemes of configuration documents

Keys, strings, numbers and moments.  Control characters other than the tab are
not allowed in strings and comments.  Reading a document stops at its first fault;
most faults break the rules of the format, and a document that keeps them can still
ask for more than is provided.
-/

namespace BinMatch.Toml

open Text

inductive Fault where
  | malformed
  /-- A decimal integer has too many digits. -/
  | numberTooLong
  /-- Values are nested too deep. -/
  | nestedTooDeep
  deriving DecidableEq, Repr

abbrev Reading := StateT (List Char) (Except Fault)

namespace Reading

variable {α : Type}

/-- A scanner fails where the rules are broken. -/
def ofScanner (s : Scanner α) : Reading α := fun text =>
  match s.run text with
  | some result => .ok result
  | none => .error .malformed

instance : MonadLift Scanner Reading := ⟨ofScanner⟩

def readAll (r : Reading α) (text : List Char) : Except Fault α :=
  match r.run text with
  | .ok (value, []) => .ok value
  | .ok _ => .error .malformed
  | .error fault => .error fault

end Reading

def isSpacing (c : Char) : Bool :=
  c = ' ' || c = '\t'

def isSpacingOrNewline (c : Char) : Bool :=
  isSpacing c || c = '\n'

/-- Control characters that must not stand in the text itself. -/
def isControl (c : Char) : Bool :=
  (c.toNat < 0x20 && c ≠ '\t') || c.toNat = 0x7F

def isBareKey (c : Char) : Bool :=
  c.isAlphanum || c = '-' || c = '_'

def isHexDigit (c : Char) : Bool :=
  c.isDigit || ('a' ≤ c && c ≤ 'f') || ('A' ≤ c && c ≤ 'F')

def hexValue (c : Char) : Nat :=
  if c.isDigit then c.toNat - '0'.toNat else c.toLower.toNat - 'a'.toNat + 10

def skipSpacing : Scanner Unit :=
  Scanner.skipWhile isSpacing

def skipComment : Scanner Unit := do
  if ← Scanner.accept "#" then
    let body ← Scanner.takeWhile (· ≠ '\n')
    if body.any isControl then failure

/-- The character with a code of exactly `count` hexadecimal digits. -/
def codePoint (count : Nat) : Scanner Char := do
  let text ← get
  let digits := text.take count
  if digits.length ≠ count || !digits.all isHexDigit then failure
  set (text.drop count)
  let code := digits.foldl (fun n c => 16 * n + hexValue c) 0
  if h : code.isValidChar then pure (Char.ofNatAux code h) else failure

/-- Spacing and newlines behind a backslash that ends its line. -/
def skipLineEnd : Scanner Unit := do
  skipSpacing
  match ← Scanner.peek? with
  | none => pure ()
  | some '\n' => Scanner.skipWhile isSpacingOrNewline
  | some _ => failure

def escape (multiline : Bool) : Scanner (List Char) := do
  match ← Scanner.peek? with
  | none => failure
  | some c =>
    if multiline && isSpacingOrNewline c then do
      skipLineEnd
      pure []
    else do
      let _ ← Scanner.next
      match c with
      | 'b' => pure ['\x08']
      | 't' => pure ['\t']
      | 'n' => pure ['\n']
      | 'f' => pure ['\x0c']
      | 'r' => pure ['\r']
      | '"' => pure ['"']
      | '\\' => pure ['\\']
      | 'u' => do
        let c ← codePoint 4
        pure [c]
      | 'U' => do
        let c ← codePoint 8
        pure [c]
      | _ => failure

/-- The rest of a string with escapes, up to and with its closing quotes; each
step reads at least one of at most `fuel` characters. -/
def escapedBody (multiline : Bool) : Nat → Scanner (List Char)
  | 0 => failure
  | fuel + 1 => do
    if ← Scanner.accept (if multiline then "\"\"\"" else "\"") then pure []
    else do
      let c ← Scanner.next
      if c = '\\' then do
        let start ← escape multiline
        let rest ← escapedBody multiline fuel
        pure (start ++ rest)
      else if isControl c && !(multiline && c = '\n') then failure
      else do
        let rest ← escapedBody multiline fuel
        pure (c :: rest)

def escapedString (multiline : Bool) : Scanner (List Char) := do
  let text ← get
  escapedBody multiline (text.length + 1)

def positionOf? (lexeme : List Char) : List Char → Option Nat
  | [] => if lexeme.isEmpty then some 0 else none
  | c :: rest =>
    if lexeme.isPrefixOf (c :: rest) then some 0
    else (positionOf? lexeme rest).map (· + 1)

/-- A string without escapes up to its closing quotes, the opening ones being
read. -/
def literalString (multiline : Bool) : Scanner (List Char) := do
  let text ← get
  let quotes := if multiline then ['\'', '\'', '\''] else ['\'']
  match positionOf? quotes text with
  | none => failure
  | some n => do
    let body := text.take n
    if body.any fun c => isControl c && !(multiline && c = '\n') then failure
    set (text.drop (n + quotes.length))
    pure body

/-- Up to two quotes that directly follow closing ones belong to the string. -/
def extraQuotes (quote : String) : Scanner (List Char) := do
  if ← Scanner.accept (quote ++ quote) then pure (quote ++ quote).toList
  else if ← Scanner.accept quote then pure quote.toList
  else pure []

def string : Scanner String := do
  if ← Scanner.accept "\"\"\"" then do
    let _ ← Scanner.accept "\n"
    let body ← escapedString true
    let extra ← extraQuotes "\""
    pure (String.ofList (body ++ extra))
  else if ← Scanner.accept "\x27\x27\x27" then do
    let _ ← Scanner.accept "\n"
    let body ← literalString true
    let extra ← extraQuotes "\x27"
    pure (String.ofList (body ++ extra))
  else if ← Scanner.accept "\"" then String.ofList <$> escapedString false
  else if ← Scanner.accept "\x27" then String.ofList <$> literalString false
  else failure

/-- One part of a key: bare, or a string on one line. -/
def keyPart : Scanner String := do
  if ← Scanner.accept "\"" then String.ofList <$> escapedString false
  else if ← Scanner.accept "\x27" then String.ofList <$> literalString false
  else do
    let part ← Scanner.takeWhile isBareKey
    if part.isEmpty then failure
    pure (String.ofList part)

def keyRest : Nat → Scanner (List String)
  | 0 => failure
  | fuel + 1 => do
    skipSpacing
    if ← Scanner.accept "." then do
      skipSpacing
      let part ← keyPart
      let rest ← keyRest fuel
      pure (part :: rest)
    else pure []

def key : Scanner (List String) := do
  let first ← keyPart
  let text ← get
  let rest ← keyRest (text.length + 1)
  pure (first :: rest)

/-- Two digits whose number is at least `low` and at most `high`. -/
def twoDigits (low high : Nat) : Scanner Nat := do
  let a ← Scanner.next
  let b ← Scanner.next
  let n := Numeric.Decimal.value [a, b]
  if a.isDigit && b.isDigit && low ≤ n && n ≤ high then pure n else failure

/-- A point and digits, read only where a digit follows the point. -/
def secondsFraction : Scanner Unit := do
  Scanner.expect "."
  let digits ← Scanner.takeWhile Char.isDigit
  if digits.isEmpty then failure

def timeOfDay : Scanner Unit := do
  let _ ← twoDigits 0 23
  Scanner.expect ":"
  let _ ← twoDigits 0 59
  Scanner.expect ":"
  let _ ← twoDigits 0 59
  let _ ← Scanner.attempt secondsFraction

def timeOffset : Scanner Unit := do
  match ← Scanner.next with
  | 'Z' | 'z' => pure ()
  | '+' | '-' => do
    let _ ← twoDigits 0 23
    Scanner.expect ":"
    let _ ← twoDigits 0 59
  | _ => failure

def timeBehindDate : Scanner Unit := do
  match ← Scanner.next with
  | 'T' | 't' | ' ' => do
    timeOfDay
    let _ ← Scanner.attempt timeOffset
  | _ => failure

def date : Scanner (Nat × Nat × Nat) := do
  let century ← twoDigits 0 99
  let year ← twoDigits 0 99
  Scanner.expect "-"
  let month ← twoDigits 1 12
  Scanner.expect "-"
  let day ← twoDigits 1 31
  pure (100 * century + year, month, day)

def isLeapYear (year : Nat) : Bool :=
  year % 4 = 0 && (year % 100 ≠ 0 || year % 400 = 0)

def daysIn (year month : Nat) : Nat :=
  if month = 2 then if isLeapYear year then 29 else 28
  else if [4, 6, 9, 11].contains month then 30
  else 31

/-- Digits of one kind with single underscores between them. -/
def digitRun (isKind : Char → Bool) : Scanner (List Char) := do
  let run ← Scanner.takeWhile fun c => isKind c || c = '_'
  match Numeric.Decimal.joined? run with
  | some (c :: digits) => pure (c :: digits)
  | _ => failure

/-- The digits behind the mark of a base. -/
def basedInteger (base : Nat) (isKind : Char → Bool) : Scanner Value := do
  let digits ← digitRun isKind
  pure (.integer (digits.foldl (fun n c => base * n + hexValue c) 0))

/-- Digits of the integer part: a zero alone, or digits that start with none. -/
def wholePart : Scanner (List Char) := do
  if ← Scanner.accept "0" then pure ['0'] else digitRun Char.isDigit

def fractionPart : Scanner (Option (List Char)) := do
  if ← Scanner.accept "." then some <$> digitRun Char.isDigit else pure none

def exponentPart : Scanner (Option Int) := do
  if (← Scanner.accept "e") || (← Scanner.accept "E") then do
    let negative ← Numeric.Decimal.sign
    let digits ← digitRun Char.isDigit
    let n : Int := Numeric.Decimal.value digits
    pure (some (if negative then -n else n))
  else pure none

/-- An integer with its digits, as long as it is not too long. -/
def decimalInteger (negative : Bool) (digits : List Char) : Except Fault Value :=
  if Numeric.Decimal.longestInteger < digits.length then .error .numberTooLong
  else
    let n : Int := Numeric.Decimal.value digits
    .ok (.integer (if negative then -n else n))

/-- A decimal integer or fraction, or a special number, with its sign. -/
def decimalNumber : Reading Value := do
  let negative ← Numeric.Decimal.sign
  if ← Scanner.accept "inf" then
    pure (.decimal (if negative then -(1.0 / 0.0) else 1.0 / 0.0))
  else if ← Scanner.accept "nan" then pure (.decimal (0.0 / 0.0))
  else do
    let whole ← wholePart
    let fraction ← fractionPart
    let exponent ← exponentPart
    if fraction.isNone && exponent.isNone then
      StateT.lift (decimalInteger negative whole)
    else do
      let digits := fraction.getD []
      pure (.decimal (Numeric.nearestDecimal negative
        (Numeric.Decimal.value (whole ++ digits))
        (exponent.getD 0 - digits.length)))

def number : Reading Value := do
  if ← Scanner.accept "0x" then basedInteger 16 isHexDigit
  else if ← Scanner.accept "0o" then
    basedInteger 8 fun c => '0' ≤ c && c ≤ '7'
  else if ← Scanner.accept "0b" then basedInteger 2 fun c => c = '0' || c = '1'
  else decimalNumber

def momentOrNumber : Reading Value := do
  match ← Scanner.attempt date with
  | some (year, month, day) => do
    let _ ← Scanner.attempt timeBehindDate
    if year = 0 || daysIn year month < day then throw .malformed
    pure .moment
  | none =>
    match ← Scanner.attempt timeOfDay with
    | some () => pure .moment
    | none => number

end BinMatch.Toml
