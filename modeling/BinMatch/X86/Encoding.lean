import BinMatch.X86.Decoder
import BinMatch.X86.OpcodeTable
import BinMatch.X86.Prefix

/-!
# Reading encodings

Reads one encoded instruction: prefixes, opcode, ModRM byte with its addressing
bytes, then the operands in the order of the table's row.
-/

namespace BinMatch.X86

def maxLength : Nat := 15

def generalRegister (size n : Nat) : String :=
  let names :=
    if size = 1 then ["al", "cl", "dl", "bl", "ah", "ch", "dh", "bh"]
    else if size = 2 then ["ax", "cx", "dx", "bx", "sp", "bp", "si", "di"]
    else ["eax", "ecx", "edx", "ebx", "esp", "ebp", "esi", "edi"]
  names.getD n ""

def segmentRegister? (n : Nat) : Option String :=
  ["es", "cs", "ss", "ds", "fs", "gs"][n]?

def vectorRegister (n : Nat) : String :=
  "xmm" ++ toString n

def stackRegisterName (n : Nat) : String :=
  "st(" ++ toString n ++ ")"

/-- What the ModRM byte selects beside the register field. -/
inductive Place where
  | register (n : Nat)
  | memory (base index : String) (scale : Nat) (disp : Int)

structure ModRM where
  byte : UInt8
  sib : UInt8
  place : Place

namespace ModRM

def regField (m : ModRM) : Nat := ModRMPattern.regField m.byte

def isMemory (m : ModRM) : Bool :=
  match m.place with
  | .register _ => false
  | .memory .. => true

def absent : ModRM := ⟨0, 0, .register 0⟩

def readDisp (mode : UInt8) : Reader Int :=
  if mode = 1 then Reader.littleSigned 1
  else if mode = 2 then Reader.littleSigned 4
  else pure 0

def readScaled (b : UInt8) (mode : UInt8) : Reader ModRM := do
  let sib ← Reader.byte
  let scale := Nat.pow 2 (sib >>> 6).toNat
  let indexField := (sib >>> 3 &&& 7).toNat
  let index := if indexField = 4 then "" else generalRegister 4 indexField
  let baseField := (sib &&& 7).toNat
  if baseField = 5 ∧ mode = 0 then
    let disp ← Reader.littleSigned 4
    pure ⟨b, sib, .memory "" index scale disp⟩
  else
    let disp ← readDisp mode
    pure ⟨b, sib, .memory (generalRegister 4 baseField) index scale disp⟩

/-- The addressing bytes behind the ModRM byte `b`. -/
def read (b : UInt8) : Reader ModRM := do
  let mode := b >>> 6
  let low := (b &&& 7).toNat
  if mode = 3 then pure ⟨b, 0, .register low⟩
  else if low = 4 then readScaled b mode
  else if low = 5 ∧ mode = 0 then
    let disp ← Reader.littleSigned 4
    pure ⟨b, 0, .memory "" "" 1 disp⟩
  else
    let disp ← readDisp mode
    pure ⟨b, 0, .memory (generalRegister 4 low) "" 1 disp⟩

end ModRM

structure OperandContext where
  /-- The operand size. -/
  native : Nat
  segment : String
  opcode : UInt8
  modrm : ModRM

namespace OperandContext

def placeOf (ctx : OperandContext) (size : Nat) (register : Nat → String)
    (registerSize : Nat) : RawOperand :=
  match ctx.modrm.place with
  | .register n => .register registerSize (register n)
  | .memory base index scale disp =>
    .memory size ⟨ctx.segment, base, index, scale, disp⟩

/-- The operands of one form; a far pointer makes two. -/
def read (ctx : OperandContext) : OperandForm → Reader (List EncodedOperand)
  | .place w =>
    let size := w.size ctx.native
    pure [.plain (ctx.placeOf size (generalRegister size) size)]
  | .memory w =>
    let size := w.size ctx.native
    pure [.plain (ctx.placeOf size (generalRegister size) size)]
  | .register w =>
    let size := w.size ctx.native
    pure [.plain (.register size (generalRegister size ctx.modrm.regField))]
  | .segment => do
    let name ← Reader.ofOption (segmentRegister? ctx.modrm.regField)
    pure [.plain (.register 2 name)]
  | .opcodeRegister w =>
    let size := w.size ctx.native
    pure [.plain (.register size (generalRegister size (ctx.opcode &&& 7).toNat))]
  | .accumulator =>
    pure [.plain (.register ctx.native (generalRegister ctx.native 0))]
  | .fixed size name => pure [.plain (.register size name)]
  | .immediate encoded w signed => do
    let count := encoded.size ctx.native
    let size := w.size ctx.native
    if signed then
      let value ← Reader.littleSigned count
      pure [.plain (.immediate size value)]
    else
      let value ← Reader.little count
      pure [.plain (.immediate size value)]
  | .one w => pure [.plain (.immediate (w.size ctx.native) 1)]
  | .distance count => do
    let distance ← Reader.littleSigned count
    pure [.ahead distance]
  | .absolute w => do
    let address ← Reader.little 4
    pure [.plain (.memory (w.size ctx.native) ⟨ctx.segment, "", "", 1, address⟩)]
  | .farPointer => do
    let offset ← Reader.little 4
    let selector ← Reader.little 2
    pure [.plain (.immediate 2 selector), .plain (.immediate 4 offset)]
  | .destination w =>
    pure [.plain (.memory (w.size ctx.native) ⟨"es", "edi", "", 1, 0⟩)]
  | .source w =>
    pure [.plain (.memory (w.size ctx.native) ⟨ctx.segment, "esi", "", 1, 0⟩)]
  | .vector => pure [.plain (.register 16 (vectorRegister ctx.modrm.regField))]
  | .vectorPlace size => pure [.plain (ctx.placeOf size vectorRegister 16)]
  | .stackTop => pure [.plain (.register 10 (stackRegisterName 0))]
  | .stackRegister => pure [.plain (ctx.placeOf 10 stackRegisterName 10)]

def readAll (ctx : OperandContext) :
    List OperandForm → Reader (List EncodedOperand)
  | [] => pure []
  | form :: forms => do
    let first ← ctx.read form
    let others ← ctx.readAll forms
    pure (first ++ others)

end OperandContext

namespace Encoding

/-- The word for a repeat prefix in front of the name, if it means anything there.
An exchange in memory shows it as a hint about its lock. -/
def repeatWord (r : RepeatPrefix) : NameFamily → String
  | .plain | .exchange => ""
  | .string => match r with | .equal => "rep " | .notEqual => "repne "
  | .stringComparison => match r with | .equal => "repe " | .notEqual => "repne "
  | .conditionalJump | .branch | .farReturn =>
    match r with | .equal => "" | .notEqual => "bnd "
  | .nearReturn => match r with | .equal => "repz " | .notEqual => "bnd "

def elisionWord : RepeatPrefix → String
  | .notEqual => "xacquire "
  | .equal => "xrelease "

def lockWords (p : Prefixes) (inMemory : Bool) (family : NameFamily) : String :=
  if p.lock then p.elision.elim "" elisionWord ++ "lock "
  else
    p.repeated.elim "" fun r =>
      if family = .exchange && inMemory && p.elision.isSome then elisionWord r
      else repeatWord r family

/-- The name of the instruction with the prefixes that show in it; in front of a
branch the data segment says that its target is not tracked. -/
def nameOf (p : Prefixes) (inMemory : Bool) (family : NameFamily)
    (name : String) : String :=
  lockWords p inMemory family ++
    (if family = .branch && p.segment = "ds" then "notrack " else "") ++ name

/-- The lock prefix is allowed where memory is changed in one step. -/
def admitsLock (inMemory narrow : Bool) : Locking → Bool
  | .never => false
  | .memory => inMemory
  | .wideMemory => inMemory && !narrow

def readRow (p : Prefixes) (opcode : UInt8) (modrm : ModRM) (row : OpcodeRow) :
    Reader Encoding := do
  let narrow := p.operandSize && row.demand ≠ .present .operandSize
  let inMemory := row.usesModRM && modrm.isMemory
  if p.lock && !admitsLock inMemory narrow row.locking then .fail
  else
    let name ← Reader.ofOption
      (if narrow then row.narrowMnemonic else some row.mnemonic)
    let ctx : OperandContext :=
      { native := if narrow then 2 else 4, segment := p.segment, opcode, modrm }
    let operands ← ctx.readAll row.operands
    pure
      { mnemonic := nameOf p inMemory row.family name
        opcode := if row.extended then Prefixes.leadByte else opcode
        secondOpcode := if row.extended then opcode else 0
        modrm := modrm.byte
        sib := modrm.sib
        operands }

def readOpcode (p : Prefixes) (extended : Bool) (opcode : UInt8) :
    Reader Encoding := do
  let candidates := OpcodeTable.rows.filter fun row =>
    row.opcode = opcode && row.extended = extended && p.meets row.demand
  if candidates.any (·.usesModRM) then
    let b ← Reader.byte
    let row ← Reader.ofOption (candidates.find? (·.acceptsModRM b))
    let modrm ← ModRM.read b
    readRow p opcode modrm row
  else
    let row ← Reader.ofOption candidates.head?
    readRow p opcode ModRM.absent row

def read : Reader Encoding := do
  let (p, first) ← prefixed maxLength
  if first = Prefixes.leadByte then
    let second ← Reader.byte
    readOpcode p true second
  else readOpcode p false first

end Encoding

end BinMatch.X86
