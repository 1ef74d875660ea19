/-!
# Scanners

A scanner reads a value from the front of a text, or fails.  Blank characters are those of
the white space property and, in a wider sense, the four information separators too.
-/

namespace BinMatch.Text

namespace Blank

def isSpace (c : Char) : Bool :=
  let n := c.toNat
  (0x09 ≤ n && n ≤ 0x0D) || n = 0x20 || n = 0x85 || n = 0xA0 || n = 0x1680 ||
    (0x2000 ≤ n && n ≤ 0x200A) || n = 0x2028 || n = 0x2029 || n = 0x202F ||
    n = 0x205F || n = 0x3000

def isBlank (c : Char) : Bool :=
  isSpace c || (0x1C ≤ c.toNat && c.toNat ≤ 0x1F)

/-- Blank characters that do not end a line. -/
def isInline (c : Char) : Bool :=
  isBlank c && c ≠ '\n' && c ≠ '\r'

def trimRight (p : Char → Bool) (text : List Char) : List Char :=
  (text.reverse.dropWhile p).reverse

def trim (p : Char → Bool) (text : List Char) : List Char :=
  trimRight p (text.dropWhile p)

end Blank

abbrev Scanner := StateT (List Char) Option

namespace Scanner

variable {α : Type}

def peek? : Scanner (Option Char) := do
  let text ← get
  pure text.head?

def next : Scanner Char := do
  match ← get with
  | [] => failure
  | c :: rest => do
    set rest
    pure c

def takeWhile (p : Char → Bool) : Scanner (List Char) := do
  let text ← get
  set (text.dropWhile p)
  pure (text.takeWhile p)

def skipWhile (p : Char → Bool) : Scanner Unit := do
  let _ ← takeWhile p
  pure ()

def startsWith (lexeme : String) : Scanner Bool := do
  let text ← get
  pure (lexeme.toList.isPrefixOf text)

/-- Read the lexeme if it comes next, and tell whether it did. -/
def accept (lexeme : String) : Scanner Bool := do
  if ← startsWith lexeme then
    modify (·.drop lexeme.toList.length)
    pure true
  else pure false

def expect (lexeme : String) : Scanner Unit := do
  if ← accept lexeme then pure () else failure

/-- The value, or nothing and an untouched text. -/
def attempt (s : Scanner α) : Scanner (Option α) := do
  let text ← get
  match s.run text with
  | some (value, rest) => do
    set rest
    pure (some value)
  | none => pure none

def readAll (s : Scanner α) (text : List Char) : Option α :=
  match s.run text with
  | some (value, []) => some value
  | _ => none

end Scanner

end BinMatch.Text
