import BinMatch.Catalog
import BinMatch.Text.Scanner

/-!
# Environment files

An environment file assigns values to names, one binding a line.  Values may be
quoted, a comment may follow a value, and a line that breaks the rules is left
out.  A value may refer to variables by a dollar sign and braces.
-/

namespace BinMatch.Settings.Dotenv

open Text

/-- A name with its value, or with none where no value is assigned. -/
abbrev Binding := String × Option String

/-- Line feeds in place of all other line ends. -/
def unifyLineEnds : List Char → List Char
  | [] => []
  | '\r' :: '\n' :: rest => '\n' :: unifyLineEnds rest
  | c :: rest => (if c = '\r' then '\n' else c) :: unifyLineEnds rest

def skipInline : Scanner Unit :=
  Scanner.skipWhile Blank.isInline

/-- Number of characters in front of the closing quote, `n` of them being read.  The
character behind a backslash closes nothing. -/
def quotedLength (quote : Char) : List Char → Nat → Option Nat
  | [], _ => none
  | c :: rest, n =>
    if c = quote then some n
    else if c = '\\' then
      match rest with
      | [] => none
      | _ :: rest => quotedLength quote rest (n + 2)
    else quotedLength quote rest (n + 1)

/-- The text with its escapes replaced, for the escapes that quotes allow. -/
def unescape (escapes : List (Char × Char)) : List Char → List Char
  | '\\' :: c :: rest =>
    match escapes.find? (·.1 = c) with
    | some (_, plain) => plain :: unescape escapes rest
    | none => '\\' :: unescape escapes (c :: rest)
  | c :: rest => c :: unescape escapes rest
  | [] => []
termination_by text => text.length

def singleQuoteEscapes : List (Char × Char) :=
  [('\\', '\\'), ('\x27', '\x27')]

def doubleQuoteEscapes : List (Char × Char) :=
  [('\\', '\\'), ('\x27', '\x27'), ('"', '"'), ('a', '\x07'), ('b', '\x08'),
    ('f', '\x0c'), ('n', '\n'), ('r', '\r'), ('t', '\t'), ('v', '\x0b')]

def quoted (quote : Char) : Scanner (List Char) := do
  let text ← get
  let body := text.drop 1
  match quotedLength quote body 0 with
  | some n => do
    set (body.drop (n + 1))
    pure (body.take n)
  | none => failure

/-- The text in front of blanks and a number sign. -/
def withoutComment : List Char → List Char
  | [] => []
  | c :: rest =>
    if Blank.isBlank c && (rest.dropWhile Blank.isBlank).head? = some '#' then []
    else c :: withoutComment rest

/-- An unquoted value with a gap in front of it, which may belong to a comment. -/
def bareValue (gap : List Char) : Scanner (List Char) := do
  let line ← Scanner.takeWhile (· ≠ '\n')
  pure (Blank.trim Blank.isBlank (withoutComment (gap ++ line)))

/-- A value, quoted or not, and the gap in front of it. -/
def value : Scanner String := do
  let gap ← Scanner.takeWhile Blank.isInline
  match ← Scanner.peek? with
  | some '\'' => do
    let body ← quoted '\''
    pure (String.ofList (unescape singleQuoteEscapes body))
  | some '"' => do
    let body ← quoted '"'
    pure (String.ofList (unescape doubleQuoteEscapes body))
  | _ => String.ofList <$> bareValue gap

/-- The word that may stand in front of a binding, with blanks behind it. -/
def exportWord : Scanner Unit := do
  Scanner.expect "export"
  let gap ← Scanner.takeWhile Blank.isInline
  if gap.isEmpty then failure

def name : Scanner (Option String) := do
  match ← Scanner.peek? with
  | some '#' => pure none
  | some '\'' => do
    let _ ← Scanner.next
    let body ← Scanner.takeWhile (· ≠ '\'')
    Scanner.expect "\x27"
    if body.isEmpty then failure
    pure (some (String.ofList body))
  | _ => do
    let body ← Scanner.takeWhile fun c =>
      c ≠ '=' && c ≠ '#' && !Blank.isBlank c
    if body.isEmpty then failure
    pure (some (String.ofList body))

def optionalComment : Scanner Unit := do
  let _ ← Scanner.attempt do
    skipInline
    Scanner.expect "#"
    Scanner.skipWhile (· ≠ '\n')

def lineEnd : Scanner Unit := do
  skipInline
  match ← Scanner.peek? with
  | none => pure ()
  | some _ => Scanner.expect "\n"

def skipLine : Scanner Unit := do
  Scanner.skipWhile (· ≠ '\n')
  let _ ← Scanner.accept "\n"

inductive Line where
  | binding (b : Binding)
  | blank
  /-- The line breaks the rules from the place where it was left on. -/
  | broken

/-- Go on with what a step reads, or break off in front of it. -/
def orBreak {α : Type} (step : Scanner α) (next : α → Scanner Line) :
    Scanner Line := do
  match ← Scanner.attempt step with
  | some a => next a
  | none => pure .broken

def assignedValue : Scanner (Option String) := do
  if ← Scanner.accept "=" then some <$> value else pure none

def line : Scanner Line := do
  let _ ← Scanner.attempt exportWord
  orBreak name fun key => do
    skipInline
    orBreak assignedValue fun value => do
      optionalComment
      orBreak lineEnd fun () =>
        pure (key.elim .blank fun k => .binding (k, value))

/-- The bindings of a text of at most `fuel` lines. -/
def bindingsWithin : Nat → List Char → List Binding
  | 0, _ => []
  | fuel + 1, text =>
    match text.dropWhile Blank.isBlank with
    | [] => []
    | start =>
      match line.run start with
      | some (.binding b, rest) => b :: bindingsWithin fuel rest
      | some (.blank, rest) => bindingsWithin fuel rest
      | some (.broken, rest) =>
        bindingsWithin fuel ((skipLine.run rest).elim [] (·.2))
      | none => []

/-- The mark that may open a text and is no part of it. -/
def openingMark : Char := '\ufeff'

def bindings (text : String) : List Binding :=
  let chars := text.toList
  let chars := if chars.head? = some openingMark then chars.drop 1 else chars
  bindingsWithin (chars.length + 1) (unifyLineEnds chars)

/-- A piece of a value: text, or a reference to a variable with what stands for it
if that is unset. -/
inductive Piece where
  | plain (c : Char)
  | reference (name : String) (fallback : Option String)

def reference? : List Char → Option (Piece × List Char)
  | '$' :: '\x7b' :: text =>
    let name := text.takeWhile fun c => c ≠ '\x7d' && c ≠ ':'
    match text.dropWhile fun c => c ≠ '\x7d' && c ≠ ':' with
    | '\x7d' :: rest => some (.reference (String.ofList name) none, rest)
    | ':' :: '-' :: more =>
      let fallback := more.takeWhile (· ≠ '\x7d')
      match more.dropWhile (· ≠ '\x7d') with
      | _ :: rest =>
        some (.reference (String.ofList name) (some (String.ofList fallback)), rest)
      | [] => none
    | _ => none
  | _ => none

/-- The pieces of a value; each step reads at least one of its characters. -/
def piecesWithin : Nat → List Char → List Piece
  | 0, _ => []
  | _, [] => []
  | fuel + 1, c :: rest =>
    match reference? (c :: rest) with
    | some (piece, rest) => piece :: piecesWithin fuel rest
    | none => .plain c :: piecesWithin fuel rest

/-- The value with its variables replaced by what `lookup` gives for them. -/
def expand (lookup : String → Option String) (text : String) : String :=
  String.join
    ((piecesWithin text.toList.length text.toList).map fun piece =>
      match piece with
      | .plain c => String.ofList [c]
      | .reference name fallback =>
        (lookup name).getD (fallback.getD ""))

/-- The last value assigned to each name, variables replaced.  A variable is
looked up among the earlier bindings first and then in `environment`. -/
def values (environment : List (String × String)) (text : String) :
    Catalog String (Option String) :=
  (bindings text).foldl
    (fun found (name, value) =>
      let lookup (v : String) : Option String :=
        match found.get? v with
        | some value => some (value.getD "")
        | none => environment.lookup v
      found.put name (value.map (expand lookup)))
    Catalog.empty

end BinMatch.Settings.Dotenv
