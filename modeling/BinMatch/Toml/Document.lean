import BinMatch.Toml.Lexeme

/-!
# Configuration documents

A document is read one statement at a time.  Beside the tables read so far the
reader keeps which of them must not be opened or extended again.
-/

namespace BinMatch.Toml

open Text

abbrev Key := List String

structure Marks where
  /-- Tables that a header must not open again. -/
  declared : List Key := []
  /-- Values written in one piece; nothing below them may change. -/
  frozen : List Key := []
  /-- Tables that are declared as of the next header. -/
  pending : List Key := []

namespace Marks

def isDeclared (m : Marks) (key : Key) : Bool :=
  m.declared.contains key

def isFrozen (m : Marks) (key : Key) : Bool :=
  m.frozen.any (·.isPrefixOf key)

def declare (m : Marks) (key : Key) : Marks :=
  { m with declared := key :: m.declared }

def freeze (m : Marks) (key : Key) : Marks :=
  { m with frozen := key :: m.frozen }

/-- The pending tables count as declared from now on. -/
def settle (m : Marks) : Marks :=
  { m with declared := m.pending ++ m.declared, pending := [] }

def forget (m : Marks) (key : Key) : Marks :=
  { m with
    declared := m.declared.filter (!key.isPrefixOf ·)
    frozen := m.frozen.filter (!key.isPrefixOf ·) }

end Marks

/-- The value is written in one piece. -/
def Value.isCompound : Value → Bool
  | .array _ | .table _ => true
  | _ => false

def skipFiller : Nat → Scanner Unit
  | 0 => failure
  | fuel + 1 => do
    Scanner.skipWhile isSpacingOrNewline
    match ← Scanner.peek? with
    | some '#' => do
      skipComment
      skipFiller fuel
    | _ => pure ()

def skipAllFiller : Scanner Unit := do
  let text ← get
  skipFiller (text.length + 1)

/-- Put the value of an inline pair into its table, which dotted keys open. -/
def putInline (marks : Marks) (key : Key) (value : Value) (t : Table) :
    Option Table :=
  if marks.isFrozen key then none
  else
    match key.getLast? with
    | some last => t.modifyAt false (Table.putNew last value) key.dropLast
    | none => none

/-- The room that nested values have.  An array takes two units of it, an inline
table three. -/
def nestingRoom : Nat := 984

def enter (cost room : Nat) : Except Fault Nat :=
  if room < cost then .error .nestedTooDeep else .ok (room - cost)

mutual

/-- A value; each step reads at least one of at most `fuel` characters, and `room` bounds
how deep arrays and inline tables nest. -/
def value : Nat → Nat → Reading Value
  | 0, _ => throw .malformed
  | fuel + 1, room => do
    match ← Scanner.peek? with
    | some '"' | some '\'' => do
      let s ← string
      pure (.text s)
    | some 't' => do
      Scanner.expect "true"
      pure (.boolean true)
    | some 'f' => do
      Scanner.expect "false"
      pure (.boolean false)
    | some '[' => do
      let inner ← StateT.lift (enter 2 room)
      let _ ← Scanner.next
      skipAllFiller
      let all ← items fuel inner
      pure (.array all)
    | some '\x7b' => do
      let inner ← StateT.lift (enter 3 room)
      let _ ← Scanner.next
      skipSpacing
      if ← Scanner.accept "\x7d" then pure (.table [])
      else do
        let t ← pairs fuel inner {} []
        pure (.table t)
    | _ => momentOrNumber

/-- The items of an array that are left, up to and with its closing bracket. -/
def items : Nat → Nat → Reading (List Value)
  | 0, _ => throw .malformed
  | fuel + 1, room => do
    if ← Scanner.accept "]" then pure []
    else do
      let first ← value fuel room
      skipAllFiller
      if ← Scanner.accept "]" then pure [first]
      else do
        Scanner.expect ","
        skipAllFiller
        let rest ← items fuel room
        pure (first :: rest)

/-- An inline table from its next pair on, up to and with its closing brace. -/
def pairs : Nat → Nat → Marks → Table → Reading Table
  | 0, _, _, _ => throw .malformed
  | fuel + 1, room, marks, t => do
    let k ← key
    Scanner.expect "="
    skipSpacing
    let v ← value fuel room
    match putInline marks k v t with
    | none => throw .malformed
    | some t => do
      skipSpacing
      if ← Scanner.accept "\x7d" then pure t
      else do
        Scanner.expect ","
        skipSpacing
        pairs fuel room (if v.isCompound then marks.freeze k else marks) t

end

def anyValue : Reading Value := do
  let text ← get
  value (2 * text.length + 2) nestingRoom

structure Document where
  table : Table := []
  /-- The table that pairs go into. -/
  header : Key := []
  marks : Marks := {}

namespace Document

def openTable (d : Document) (key : Key) : Option Document :=
  let marks := d.marks.settle
  if marks.isDeclared key || marks.isFrozen key then none
  else do
    let table ← d.table.modifyAt true some key
    pure { table, header := key, marks := marks.declare key }

/-- Add a table to the array of a header and open it. -/
def appendTable (d : Document) (key : Key) : Option Document :=
  let marks := d.marks.settle
  if marks.isFrozen key then none
  else do
    let last ← key.getLast?
    let table ← d.table.modifyAt true (Table.appendTable last) key.dropLast
    pure { table, header := key, marks := (marks.forget key).declare key }

/-- The keys of the tables that a dotted key passes through. -/
def passed (header key : Key) : List Key :=
  (List.range (key.length - 1)).map fun n => header ++ key.take (n + 1)

def putPair (d : Document) (key : Key) (value : Value) : Option Document :=
  let through := passed d.header key
  let parent := d.header ++ key.dropLast
  if through.any d.marks.isDeclared || d.marks.isFrozen parent then none
  else do
    let last ← key.getLast?
    let table ← d.table.modifyAt true (Table.putNew last value) parent
    let marks := { d.marks with pending := through ++ d.marks.pending }
    pure
      { d with
        table
        marks :=
          if value.isCompound then marks.freeze (d.header ++ key) else marks }

/-- A header or a pair, or nothing in front of a comment or the line's end. -/
def statement (d : Document) : Reading Document := do
  match ← Scanner.peek? with
  | none | some '\n' | some '#' => pure d
  | some '[' => do
    if ← Scanner.accept "[[" then do
      skipSpacing
      let k ← Toml.key
      match d.appendTable k with
      | some d => do
        Scanner.expect "]]"
        pure d
      | none => throw .malformed
    else do
      let _ ← Scanner.next
      skipSpacing
      let k ← Toml.key
      match d.openTable k with
      | some d => do
        Scanner.expect "]"
        pure d
      | none => throw .malformed
  | some _ => do
    let k ← Toml.key
    Scanner.expect "="
    skipSpacing
    let v ← anyValue
    match d.putPair k v with
    | some d => pure d
    | none => throw .malformed

/-- The statements up to the end of the text, each on a line of its own. -/
def statements : Nat → Document → Reading Document
  | 0, _ => throw .malformed
  | fuel + 1, d => do
    skipSpacing
    let d ← d.statement
    skipSpacing
    skipComment
    match ← Scanner.peek? with
    | none => pure d
    | some '\n' => do
      let _ ← Scanner.next
      statements fuel d
    | some _ => throw .malformed

/-- Line ends of two characters read as one. -/
def joinLineEnds : List Char → List Char
  | [] => []
  | '\r' :: '\n' :: rest => '\n' :: joinLineEnds rest
  | c :: rest => c :: joinLineEnds rest

/-- The tables of a document, or why it cannot be read. -/
def parse (text : String) : Except Fault Table :=
  let chars := joinLineEnds text.toList
  ((statements (chars.length + 1) {}).readAll chars).map (·.table)

end Document

end BinMatch.Toml
