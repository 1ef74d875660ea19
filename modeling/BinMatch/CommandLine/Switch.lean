/-!
# Options of a command

An argument list is read word by word.  A word behind two dashes is a long
option, letters behind one dash are short ones, and two dashes alone end the
options.  Every other word is an operand.
-/

namespace BinMatch.CommandLine

inductive Misuse where
  | unknownOption
  | missingValue
  | unexpectedValue
  | missingCommand
  | unknownCommand
  | wrongOperandCount
  /-- A file name holds a null character. -/
  | unnameableFile
  deriving DecidableEq, Repr

inductive Effect (α : Type) where
  | flag (set : α → α)
  | value (set : String → α → α)

/-- An option and its spellings, dashes included. -/
structure Switch (α : Type) where
  spellings : List String
  effect : Effect α

def effectOf? {α : Type} (switches : List (Switch α)) (spelling : String) :
    Option (Effect α) :=
  (switches.find? (·.spellings.contains spelling)).map (·.effect)

structure Reading (α : Type) where
  settings : α
  /-- The option whose value is the next word. -/
  awaiting : Option (String → α → α)
  operands : List String
  /-- All words from here on are operands. -/
  optionsOver : Bool

namespace Reading

def start {α : Type} (settings : α) : Reading α :=
  { settings, awaiting := none, operands := [], optionsOver := false }

variable {α : Type} (r : Reading α)

def set (f : α → α) : Reading α :=
  { r with settings := f r.settings }

def await (f : String → α → α) : Reading α :=
  { r with awaiting := some f }

/-- Options may go on behind an operand only if they mix with operands. -/
def operand (mixed : Bool) (word : String) : Reading α :=
  { r with operands := r.operands ++ [word], optionsOver := r.optionsOver || !mixed }

/-- A long option, its value attached behind an equality sign or not. -/
def long (switches : List (Switch α)) (word : String) :
    Except Misuse (Reading α) :=
  let spelling := word.toList.takeWhile (· ≠ '=')
  let attached := word.toList.dropWhile (· ≠ '=')
  match effectOf? switches (String.ofList spelling), attached with
  | none, _ => .error .unknownOption
  | some (.flag f), [] => .ok (r.set f)
  | some (.flag _), _ :: _ => .error .unexpectedValue
  | some (.value f), [] => .ok (r.await f)
  | some (.value f), _ :: text => .ok (r.set (f (String.ofList text)))

/-- Short options in one word; what follows an option with a value is its value. -/
def short (switches : List (Switch α)) (r : Reading α) :
    List Char → Except Misuse (Reading α)
  | [] => .ok r
  | c :: rest =>
    match effectOf? switches (String.ofList ['-', c]), rest with
    | none, _ => .error .unknownOption
    | some (.flag f), _ => short switches (r.set f) rest
    | some (.value f), [] => .ok (r.await f)
    | some (.value f), _ :: _ => .ok (r.set (f (String.ofList rest)))

def word (switches : List (Switch α)) (mixed : Bool) (r : Reading α)
    (text : String) : Except Misuse (Reading α) :=
  match r.awaiting with
  | some f => .ok { r.set (f text) with awaiting := none }
  | none =>
    if r.optionsOver then .ok (r.operand mixed text)
    else
      match text.toList with
      | ['-', '-'] => .ok { r with optionsOver := true }
      | '-' :: '-' :: _ => r.long switches text
      | '-' :: c :: rest => short switches r (c :: rest)
      | _ => .ok (r.operand mixed text)

end Reading

/-- The settings and the operands of an argument list.  Unless options mix with
operands, the first operand ends the options. -/
def readWords {α : Type} (switches : List (Switch α)) (mixed : Bool)
    (defaults : α) (words : List String) : Except Misuse (α × List String) := do
  let r ← words.foldlM (Reading.word switches mixed) (Reading.start defaults)
  if r.awaiting.isSome then throw .missingValue
  pure (r.settings, r.operands)

end BinMatch.CommandLine
