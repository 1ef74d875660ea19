import BinMatch.Text.Notation
import BinMatch.Text.Printable

/-!
# Errors

What can go wrong while two binaries are compared, one constructor per cause.
`Error.message` is the single line shown to the user.
-/

namespace BinMatch

inductive OsFailure where
  /-- A failure known by its text alone. -/
  | text (reason : String)
  /-- A numbered failure; the reason may be empty. -/
  | numbered (code : Int) (reason : String) (file : Option String)
  deriving DecidableEq, Repr

namespace OsFailure

def missingFile : OsFailure := .numbered 2 "No such file or directory" none
def fileExists : OsFailure := .numbered 17 "File exists" none
def notADirectory : OsFailure := .numbered 20 "Not a directory" none
def isADirectory : OsFailure := .numbered 21 "Is a directory" none
def nameTooLong : OsFailure := .numbered 36 "File name too long" none

def hexDigits : Nat → Nat → List Char
  | 0, _ => []
  | width + 1, n => hexDigits width (n / 16) ++ [Nat.digitChar (n % 16)]

/-- The code of a character in two, four or eight digits. -/
def codeEscape (n : Nat) : List Char :=
  if n < 0x100 then ['\\', 'x'] ++ hexDigits 2 n
  else if n < 0x10000 then ['\\', 'u'] ++ hexDigits 4 n
  else ['\\', 'U'] ++ hexDigits 8 n

def quotedChar (quote c : Char) : List Char :=
  if c = '\\' || c = quote then ['\\', c]
  else if c = '\n' then ['\\', 'n']
  else if c = '\r' then ['\\', 'r']
  else if c = '\t' then ['\\', 't']
  else if Text.Printable.isPrintable c then [c]
  else codeEscape c.toNat

/-- A file name in quotes; single quotes unless the name itself holds one. -/
def quotedName (name : String) : String :=
  let chars := name.toList
  let quote := if chars.contains '\x27' && !chars.contains '"' then '"' else '\x27'
  String.ofList (quote :: chars.flatMap (quotedChar quote) ++ [quote])

/-- The reason, or the number of a failure that has none. -/
def message : OsFailure → String
  | .text reason => reason
  | .numbered code reason file =>
    if reason.isEmpty then
      "[Errno " ++ toString code ++ "] " ++
        match file with
        | some name => ": " ++ quotedName name
        | none => ""
    else reason

end OsFailure

inductive Error where
  | debugFormat (path detail : String)
  | fileAccess (path : String) (cause : OsFailure)
  | invalidConfig (path detail : String)
  | notConfigured (name : String)
  | symbolNotFound (name : String)
  | missingSize (name : String)
  | requiredSize (name : String)
  | outOfBounds (name : String) (offset size imageSize : Int)
  | disassembly (address : Int) (detail : String)
  | watcher (detail : String)
  deriving DecidableEq, Repr

namespace Error

def undecodable (address : Int) : Error :=
  .disassembly address "undecodable instruction"

def message : Error → String
  | .debugFormat path detail =>
    "Failed to parse debug file " ++ path ++
      if detail.isEmpty then "" else ": " ++ detail
  | .fileAccess path cause => "I/O error on " ++ path ++ ": " ++ cause.message
  | .invalidConfig path detail =>
    "Invalid comparer config " ++ path ++ ": " ++ detail
  | .notConfigured name => "Could not find '" ++ name ++ "' in the config."
  | .symbolNotFound name =>
    "Could not find '" ++ name ++ "' in the debug file, skipping."
  | .missingSize name => "No size known for '" ++ name ++ "' on either side."
  | .requiredSize name =>
    "No size defined for the original function '" ++ name ++
      "', but truncate_to_original was specified."
  | .outOfBounds name offset size imageSize =>
    "The offset/size of '" ++ name ++ "' (" ++ Text.Hex.address offset ++ "+" ++
      Text.Hex.address size ++ ") is outside of the input file (" ++
      Text.Hex.address imageSize ++ " bytes)."
  | .disassembly address detail =>
    "Disassembly failed at " ++ Text.Hex.address address ++ ": " ++ detail
  | .watcher detail => "Watcher error: " ++ detail

end Error

end BinMatch
