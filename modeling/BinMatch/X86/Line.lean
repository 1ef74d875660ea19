import BinMatch.AddressMap
import BinMatch.Symbol.Extraction
import BinMatch.Text.Notation
import BinMatch.X86.Disassembly

/-!
# Instruction lines

One line of text for each instruction.  A direct call shows the name of the
function that it calls, so that calls of one function look alike at different
addresses; numbers that differ from build to build can be hidden.
-/

namespace BinMatch.X86

structure LineOptions where
  showAddresses : Bool := false
  showDisplacements : Bool := true
  showImmediates : Bool := true
  deriving DecidableEq, Repr

def pointerWord (size : Nat) : String :=
  match size with
  | 1 => "byte"
  | 2 => "word"
  | 4 => "dword"
  | 6 => "fword"
  | 8 => "qword"
  | 10 => "tbyte"
  | 16 => "xmmword"
  | 32 => "ymmword"
  | n => "m" ++ toString (8 * n)

namespace Instruction

variable (insn : Instruction)

/-- A call, near or far, through a pointer. -/
def isIndirectCall : Bool :=
  insn.opcode = 0xFF && (insn.regField = 2 || insn.regField = 3)

/-- The base register, then the index register with its scale. -/
def registerSum (m : Memory) : String :=
  let index :=
    if m.scale = 1 then m.index else m.index ++ "*" ++ toString m.scale
  if m.base.isEmpty then index
  else if m.index.isEmpty then m.base
  else m.base ++ " + " ++ index

def dispTerm (opts : LineOptions) (size : Nat) (m : Memory) : String :=
  if m.hasDisp then
    (if m.disp < 0 then " - " else " + ") ++
      if opts.showDisplacements then Text.Hex.address m.disp.natAbs
      else "<disp" ++ toString size ++ ">"
  else ""

def effectiveAddress (opts : LineOptions) (size : Nat) (m : Memory) : String :=
  if m.base.isEmpty && m.index.isEmpty then
    if !opts.showDisplacements then "<indir_addr>"
    else if insn.isIndirectCall then "<indir_fn>"
    else Text.Hex.address m.disp
  else registerSum m ++ dispTerm opts size m

def memoryText (opts : LineOptions) (size : Nat) (m : Memory) : String :=
  let segment := if m.segment.isEmpty then "" else m.segment ++ ":"
  let place := segment ++ "[" ++ insn.effectiveAddress opts size m ++ "]"
  if insn.mnemonic = "lea" then place
  else pointerWord size ++ " ptr " ++ place

/-- The base name of the function at a call target, or the target itself. -/
def callLabel (names : AddressMap) (target : Int) : String :=
  match names.get? target with
  | some d => Symbol.baseName d.name
  | none => Text.Hex.address target

def immediateText (opts : LineOptions) (names : AddressMap) (size : Nat)
    (value : Int) (role : ImmediateRole) : String :=
  if insn.opcode = callOpcode then callLabel names (insn.target value)
  else
    match role with
    | .distance => "$" ++ Text.Hex.delta value
    | .farPointer =>
      if opts.showImmediates then Text.Hex.address value else "<imm_addr>"
    | _ =>
      if !opts.showImmediates then "<imm" ++ toString size ++ ">"
      else if value < 0 then "-" ++ Text.Hex.address (-value)
      else Text.Hex.address value

def operandText (opts : LineOptions) (names : AddressMap) : Operand → String
  | .register _ name => name
  | .immediate size value role => insn.immediateText opts names size value role
  | .memory size place => insn.memoryText opts size place
  | .other _ => "?"

def line (opts : LineOptions) (names : AddressMap) : String :=
  let operands :=
    ", ".intercalate (insn.operands.map (insn.operandText opts names))
  let text :=
    if operands.isEmpty then insn.mnemonic else insn.mnemonic ++ " " ++ operands
  if opts.showAddresses then Text.Hex.signed insn.address ++ ": " ++ text
  else text

end Instruction

/-- The lines of `code` at `address`; none if any of it is undecodable. -/
def renderLines [Decoder] (opts : LineOptions) (names : AddressMap)
    (code : List UInt8) (address : Int) : Except Error (List String) := do
  let instructions ← (Disassembly.ofCode code address).complete
  pure (instructions.map (·.line opts names))

def render [Decoder] (opts : LineOptions) (names : AddressMap)
    (code : List UInt8) (address : Int) : Except Error String := do
  let lines ← renderLines opts names code address
  pure (Text.Line.terminated lines)

end BinMatch.X86
