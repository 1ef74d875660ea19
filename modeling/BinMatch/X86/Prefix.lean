import BinMatch.X86.Opcode
import BinMatch.X86.Reader

/-!
# Instruction prefixes

The bytes in front of an opcode.  Lock and the two repeat prefixes exclude each
other, and so do the segment prefixes: of such prefixes the last one counts.  Some
prefixes mean more than usual by the byte that follows them: in front of the lead
byte of a two-byte opcode they choose the instruction, and a leading repeat prefix
in front of a lock marks the lock as one that may be left out.
-/

namespace BinMatch.X86

inductive RepeatPrefix where
  | notEqual
  | equal
  deriving DecidableEq, Repr

def RepeatPrefix.choosing : RepeatPrefix → ChoosingPrefix
  | .notEqual => .repeatNotEqual
  | .equal => .repeatEqual

structure Prefixes where
  lock : Bool := false
  repeated : Option RepeatPrefix := none
  operandSize : Bool := false
  segment : String := ""
  /-- The prefix that alone chooses the instruction. -/
  chosen : Option ChoosingPrefix := none
  /-- A leading repeat prefix that says when the lock may be left out: at an
  acquisition (`notEqual`) or at a release (`equal`). -/
  elision : Option RepeatPrefix := none
  deriving DecidableEq, Repr

namespace Prefixes

def leadByte : UInt8 := 0x0F

def lockByte : UInt8 := 0xF0

def operandSizeByte : UInt8 := 0x66

def segmentOf? (b : UInt8) : Option String :=
  [(0x26, "es"), (0x2E, "cs"), (0x36, "ss"), (0x3E, "ds"), (0x64, "fs"),
    (0x65, "gs")].lookup b

def repeatOf? (b : UInt8) : Option RepeatPrefix :=
  if b = 0xF2 then some .notEqual
  else if b = 0xF3 then some .equal
  else none

/-- A lock, or one of the exchanges, which lock without one. -/
def locks (b : UInt8) : Bool :=
  b = lockByte || b &&& 0xFE = 0x86 || b &&& 0xF8 = 0x90

/-- The prefixes with one repeat prefix more; `after` is the byte behind it. -/
def addRepeat (p : Prefixes) (r : RepeatPrefix) (after : UInt8) : Prefixes :=
  { p with
    lock := false
    repeated := some r
    chosen :=
      if after = leadByte || after = operandSizeByte then some r.choosing
      else p.chosen
    elision := if p = {} && locks after then some r else p.elision }

def addOperandSize (p : Prefixes) (after : UInt8) : Prefixes :=
  { p with
    operandSize := true
    chosen :=
      if p.chosen.isNone && after = leadByte then some .operandSize else p.chosen }

/-- What a prefix byte adds to the prefixes before it, given the byte behind it. -/
def effect? (b : UInt8) : Option (Prefixes → UInt8 → Prefixes) :=
  if b = lockByte then some fun p _ => { p with lock := true, repeated := none }
  else if b = operandSizeByte then some addOperandSize
  else
    match repeatOf? b, segmentOf? b with
    | some r, _ => some fun p after => p.addRepeat r after
    | none, some segment => some fun p _ => { p with segment }
    | none, none => none

/-- The prefix is there.  Where one alone chooses, the others do not count. -/
def has (p : Prefixes) (c : ChoosingPrefix) : Bool :=
  match p.chosen, c with
  | some d, _ => c = d
  | none, .operandSize => p.operandSize
  | none, .repeatNotEqual => p.repeated = some .notEqual
  | none, .repeatEqual => p.repeated = some .equal

def meets (p : Prefixes) : PrefixDemand → Bool
  | .any => true
  | .absent =>
    !(p.has .operandSize || p.has .repeatNotEqual || p.has .repeatEqual)
  | .present c => p.has c

end Prefixes

/-- The prefixes from the byte `b` on and the byte behind them, at most `n` bytes. -/
def prefixedFrom : Nat → Prefixes → UInt8 → Reader (Prefixes × UInt8)
  | 0, _, _ => .fail
  | n + 1, p, b =>
    match Prefixes.effect? b with
    | some add => .next fun after => prefixedFrom n (add p after) after
    | none => .done (p, b)

def prefixed (n : Nat) : Reader (Prefixes × UInt8) :=
  .next fun b => prefixedFrom n {} b

end BinMatch.X86
