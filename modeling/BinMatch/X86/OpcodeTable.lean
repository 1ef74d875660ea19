import BinMatch.X86.Opcode

/-!
# The opcode table

The 32-bit instructions that are decoded, family by family.  Rows for one exact
ModRM byte and rows that ask for a choosing prefix stand in front of the rows that
they take precedence over.

The table covers integer and floating-point code and the common vector instructions.
Among what it leaves out are the packed conversions of `0F 5A`, the moves of `0F 6F` to
the older vector registers, the group of `0F AE` and all opcodes of three bytes; code
that holds one of these is not decodable here.  The distance behind `E8` and `E9` has
four bytes also where an operand-size prefix would cut it to two.
-/

namespace BinMatch.X86.OpcodeTable

open OperandForm Width

def row (opcode : UInt8) (mnemonic : String) (operands : List OperandForm) :
    OpcodeRow :=
  { demand := .any
    extended := false
    opcode
    pattern := .any
    mnemonic
    narrowMnemonic := some mnemonic
    family := .plain
    locking := .never
    operands }

/-- A row for the byte behind `0F`. -/
def extendedRow (opcode : UInt8) (mnemonic : String)
    (operands : List OperandForm) : OpcodeRow :=
  { row opcode mnemonic operands with extended := true }

def group (opcode : UInt8) (n : Nat) (mnemonic : String)
    (operands : List OperandForm) : OpcodeRow :=
  { row opcode mnemonic operands with pattern := .field n }

def memoryGroup (opcode : UInt8) (n : Nat) (mnemonic : String) (size : Nat) :
    OpcodeRow :=
  { row opcode mnemonic [memory (bytes size)] with pattern := .memory (some n) }

def registerGroup (opcode : UInt8) (n : Nat) (mnemonic : String)
    (operands : List OperandForm) : OpcodeRow :=
  { row opcode mnemonic operands with pattern := .register (some n) }

def exactRow (opcode modrm : UInt8) (mnemonic : String)
    (operands : List OperandForm) : OpcodeRow :=
  { row opcode mnemonic operands with pattern := .exactly modrm }

/-- A row that is named otherwise under the operand-size prefix. -/
def narrowing (opcode : UInt8) (mnemonic narrowMnemonic : String)
    (operands : List OperandForm) : OpcodeRow :=
  { row opcode mnemonic operands with narrowMnemonic := some narrowMnemonic }

def requiring (c : ChoosingPrefix) (r : OpcodeRow) : OpcodeRow :=
  { r with demand := .present c }

def bare (r : OpcodeRow) : OpcodeRow :=
  { r with demand := .absent }

def named (family : NameFamily) (r : OpcodeRow) : OpcodeRow :=
  { r with family }

/-- A row whose memory forms may be locked. -/
def lockable (r : OpcodeRow) : OpcodeRow :=
  { r with locking := .memory }

def place8 : OperandForm := place (bytes 1)
def place16 : OperandForm := place (bytes 2)
def place32 : OperandForm := place (bytes 4)
def placeV : OperandForm := place native
def reg8 : OperandForm := register (bytes 1)
def reg16 : OperandForm := register (bytes 2)
def reg32 : OperandForm := register (bytes 4)
def regV : OperandForm := register native
def al : OperandForm := fixed 1 "al"
def cl : OperandForm := fixed 1 "cl"
def dx : OperandForm := fixed 2 "dx"

def imm8 : OperandForm := immediate (bytes 1) (bytes 1) false

/-- As many bytes as the operand size. -/
def immV : OperandForm := immediate native native false

/-- One byte, extended by its sign to the operand size. -/
def imm8Signed : OperandForm := immediate (bytes 1) native true

/-- The two-operand arithmetic of opcodes `00` to `3D` and its immediate forms.
The forms that only read memory may be locked too, but for `sbb` and `cmp`. -/
def arithmetic : List OpcodeRow :=
  ["add", "or", "adc", "sbb", "and", "sub", "xor", "cmp"].zipIdx.flatMap
    fun (name, n) =>
      let base := UInt8.ofNat (8 * n)
      let stores (r : OpcodeRow) : OpcodeRow :=
        if name = "cmp" then r else lockable r
      let loads (r : OpcodeRow) : OpcodeRow :=
        if name = "sbb" then r else stores r
      [stores (row base name [place8, reg8]),
        stores (row (base + 1) name [placeV, regV]),
        loads (row (base + 2) name [reg8, place8]),
        loads (row (base + 3) name [regV, placeV]),
        row (base + 4) name [al, imm8],
        row (base + 5) name [accumulator, immV],
        stores (group 0x80 n name [place8, imm8]),
        stores (group 0x81 n name [placeV, immV]),
        stores (group 0x83 n name [placeV, imm8Signed])]

def conditional : List OpcodeRow :=
  ["o", "no", "b", "ae", "e", "ne", "be", "a",
    "s", "ns", "p", "np", "l", "ge", "le", "g"].zipIdx.flatMap
    fun (condition, n) =>
      let low := UInt8.ofNat n
      [named .conditionalJump (row (0x70 + low) ("j" ++ condition) [distance 1]),
        named .conditionalJump
          (extendedRow (0x80 + low) ("j" ++ condition) [distance 4]),
        extendedRow (0x90 + low) ("set" ++ condition) [place8],
        extendedRow (0x40 + low) ("cmov" ++ condition) [regV, placeV]]

/-- Opcodes that hold a register in their low bits. -/
def opcodeRegisters : List OpcodeRow :=
  (List.range 8).flatMap fun n =>
    let low := UInt8.ofNat n
    [row (0x40 + low) "inc" [opcodeRegister native],
      row (0x48 + low) "dec" [opcodeRegister native],
      row (0x50 + low) "push" [opcodeRegister native],
      row (0x58 + low) "pop" [opcodeRegister native],
      row (0xB0 + low) "mov" [opcodeRegister (bytes 1), imm8],
      row (0xB8 + low) "mov" [opcodeRegister native, immV],
      extendedRow (0xC8 + low) "bswap" [opcodeRegister (bytes 4)]] ++
    if n = 0 then [row 0x90 "nop" []]
    else [row (0x90 + low) "xchg" [opcodeRegister native, accumulator]]

def segments : List OpcodeRow :=
  [row 0x06 "push" [fixed 2 "es"], row 0x07 "pop" [fixed 2 "es"],
    row 0x0E "push" [fixed 2 "cs"],
    row 0x16 "push" [fixed 2 "ss"], row 0x17 "pop" [fixed 2 "ss"],
    row 0x1E "push" [fixed 2 "ds"], row 0x1F "pop" [fixed 2 "ds"],
    extendedRow 0xA0 "push" [fixed 2 "fs"],
    extendedRow 0xA1 "pop" [fixed 2 "fs"],
    extendedRow 0xA8 "push" [fixed 2 "gs"],
    extendedRow 0xA9 "pop" [fixed 2 "gs"],
    { row 0x8C "mov" [memory (bytes 2), segment] with pattern := .memory none },
    { row 0x8C "mov" [placeV, segment] with pattern := .register none },
    { row 0x8E "mov" [segment, memory (bytes 2)] with pattern := .memory none },
    { row 0x8E "mov" [segment, placeV] with pattern := .register none },
    row 0xC4 "les" [regV, memory (bytes 4)],
    row 0xC5 "lds" [regV, memory (bytes 4)]]

/-- Shifts and rotations; a rotation through carry by one names its constant
with four bytes in the memory form. -/
def shifts : List OpcodeRow :=
  ["rol", "ror", "rcl", "rcr", "shl", "shr", "sal", "sar"].zipIdx.flatMap
    fun (name, n) =>
      [group 0xC0 n name [place8, imm8],
        group 0xC1 n name [placeV, imm8],
        group 0xD2 n name [place8, cl],
        group 0xD3 n name [placeV, cl]] ++
      if name = "rcl" then
        [{ row 0xD0 name [memory (bytes 1), one (bytes 4)] with
            pattern := .memory (some n) },
          registerGroup 0xD0 n name [place8, one (bytes 1)],
          { row 0xD1 name [memory native, one (bytes 4)] with
            pattern := .memory (some n) },
          registerGroup 0xD1 n name [placeV, one native]]
      else
        [group 0xD0 n name [place8, one (bytes 1)],
          group 0xD1 n name [placeV, one native]]

def strings : List OpcodeRow :=
  let plain := named .string
  let comparing := named .stringComparison
  [plain (row 0x6C "insb" [destination (bytes 1), dx]),
    plain (narrowing 0x6D "insd" "insw" [destination native, dx]),
    plain (row 0x6E "outsb" [dx, source (bytes 1)]),
    plain (narrowing 0x6F "outsd" "outsw" [dx, source native]),
    plain (row 0xA4 "movsb" [destination (bytes 1), source (bytes 1)]),
    plain (narrowing 0xA5 "movsd" "movsw" [destination native, source native]),
    comparing (row 0xA6 "cmpsb" [source (bytes 1), destination (bytes 1)]),
    comparing
      (narrowing 0xA7 "cmpsd" "cmpsw" [source native, destination native]),
    plain (row 0xAA "stosb" [destination (bytes 1), al]),
    plain (narrowing 0xAB "stosd" "stosw" [destination native, accumulator]),
    plain (row 0xAC "lodsb" [al, source (bytes 1)]),
    plain (narrowing 0xAD "lodsd" "lodsw" [accumulator, source native]),
    comparing (row 0xAE "scasb" [al, destination (bytes 1)]),
    comparing (narrowing 0xAF "scasd" "scasw" [accumulator, destination native])]

def oneByte : List OpcodeRow :=
  [row 0x27 "daa" [], row 0x2F "das" [], row 0x37 "aaa" [], row 0x3F "aas" [],
    narrowing 0x60 "pushal" "pushaw" [],
    narrowing 0x61 "popal" "popaw" [],
    row 0x62 "bound" [regV, memory nativePair],
    row 0x63 "arpl" [place16, reg16],
    row 0x68 "push" [immV],
    row 0x69 "imul" [regV, placeV, immV],
    row 0x6A "push" [imm8Signed],
    row 0x6B "imul" [regV, placeV, imm8Signed],
    row 0x84 "test" [place8, reg8],
    row 0x85 "test" [placeV, regV],
    lockable (named .exchange (row 0x86 "xchg" [place8, reg8])),
    lockable (named .exchange (row 0x87 "xchg" [placeV, regV])),
    row 0x88 "mov" [place8, reg8],
    row 0x89 "mov" [placeV, regV],
    row 0x8A "mov" [reg8, place8],
    row 0x8B "mov" [regV, placeV],
    row 0x8D "lea" [regV, memory native],
    group 0x8F 0 "pop" [placeV],
    narrowing 0x98 "cwde" "cbw" [],
    narrowing 0x99 "cdq" "cwd" [],
    row 0x9A "lcall" [farPointer],
    row 0x9B "wait" [],
    narrowing 0x9C "pushfd" "pushf" [],
    narrowing 0x9D "popfd" "popf" [],
    row 0x9E "sahf" [],
    row 0x9F "lahf" [],
    row 0xA0 "mov" [al, absolute (bytes 1)],
    row 0xA1 "mov" [accumulator, absolute native],
    row 0xA2 "mov" [absolute (bytes 1), al],
    row 0xA3 "mov" [absolute native, accumulator],
    row 0xA8 "test" [al, imm8],
    row 0xA9 "test" [accumulator, immV],
    named .nearReturn (row 0xC2 "ret" [immediate (bytes 2) (bytes 4) false]),
    named .nearReturn (row 0xC3 "ret" []),
    group 0xC6 0 "mov" [place8, imm8],
    group 0xC7 0 "mov" [placeV, immV],
    row 0xC8 "enter"
      [immediate (bytes 2) (bytes 4) true, immediate (bytes 1) (bytes 4) true],
    row 0xC9 "leave" [],
    named .farReturn (row 0xCA "retf" [immediate (bytes 2) (bytes 4) false]),
    named .farReturn (row 0xCB "retf" []),
    row 0xCC "int3" [],
    row 0xCD "int" [imm8],
    row 0xCE "into" [],
    row 0xCF "iretd" [],
    row 0xD4 "aam" [imm8],
    row 0xD5 "aad" [imm8],
    row 0xD6 "salc" [],
    row 0xD7 "xlatb" [],
    row 0xE0 "loopne" [distance 1],
    row 0xE1 "loope" [distance 1],
    row 0xE2 "loop" [distance 1],
    named .conditionalJump (row 0xE3 "jecxz" [distance 1]),
    row 0xE4 "in" [al, imm8],
    row 0xE5 "in" [accumulator, imm8],
    row 0xE6 "out" [imm8, al],
    row 0xE7 "out" [imm8, accumulator],
    named .branch (row 0xE8 "call" [distance 4]),
    named .branch (row 0xE9 "jmp" [distance 4]),
    row 0xEA "ljmp" [farPointer],
    named .branch (row 0xEB "jmp" [distance 1]),
    row 0xEC "in" [al, dx],
    row 0xED "in" [accumulator, dx],
    row 0xEE "out" [dx, al],
    row 0xEF "out" [dx, accumulator],
    row 0xF1 "int1" [],
    row 0xF4 "hlt" [],
    row 0xF5 "cmc" [],
    row 0xF8 "clc" [],
    row 0xF9 "stc" [],
    row 0xFA "cli" [],
    row 0xFB "sti" [],
    row 0xFC "cld" [],
    row 0xFD "std" [],
    group 0xF6 0 "test" [place8, imm8],
    group 0xF6 1 "test" [place8, imm8],
    lockable (group 0xF6 2 "not" [place8]),
    lockable (group 0xF6 3 "neg" [place8]),
    group 0xF6 4 "mul" [place8],
    group 0xF6 5 "imul" [place8],
    group 0xF6 6 "div" [place8],
    group 0xF6 7 "idiv" [place8],
    group 0xF7 0 "test" [placeV, immV],
    group 0xF7 1 "test" [placeV, immV],
    lockable (group 0xF7 2 "not" [placeV]),
    lockable (group 0xF7 3 "neg" [placeV]),
    group 0xF7 4 "mul" [placeV],
    group 0xF7 5 "imul" [placeV],
    group 0xF7 6 "div" [placeV],
    group 0xF7 7 "idiv" [placeV],
    lockable (group 0xFE 0 "inc" [place8]),
    lockable (group 0xFE 1 "dec" [place8]),
    lockable (group 0xFF 0 "inc" [placeV]),
    lockable (group 0xFF 1 "dec" [placeV]),
    named .branch (group 0xFF 2 "call" [place32]),
    named .branch (group 0xFF 3 "call" [memory (bytes 4)]),
    named .branch (group 0xFF 4 "jmp" [place32]),
    named .branch (group 0xFF 5 "jmp" [memory (bytes 6)]),
    group 0xFF 6 "push" [placeV]]

def stackExact : List OpcodeRow :=
  [exactRow 0xD9 0xD0 "fnop" [],
    exactRow 0xD9 0xE0 "fchs" [],
    exactRow 0xD9 0xE1 "fabs" [],
    exactRow 0xD9 0xE4 "ftst" [],
    exactRow 0xD9 0xE5 "fxam" [],
    exactRow 0xD9 0xE8 "fld1" [],
    exactRow 0xD9 0xE9 "fldl2t" [],
    exactRow 0xD9 0xEA "fldl2e" [],
    exactRow 0xD9 0xEB "fldpi" [],
    exactRow 0xD9 0xEC "fldlg2" [],
    exactRow 0xD9 0xED "fldln2" [],
    exactRow 0xD9 0xEE "fldz" [],
    exactRow 0xD9 0xF0 "f2xm1" [],
    exactRow 0xD9 0xF1 "fyl2x" [],
    exactRow 0xD9 0xF2 "fptan" [],
    exactRow 0xD9 0xF3 "fpatan" [],
    exactRow 0xD9 0xF4 "fxtract" [],
    exactRow 0xD9 0xF5 "fprem1" [],
    exactRow 0xD9 0xF6 "fdecstp" [],
    exactRow 0xD9 0xF7 "fincstp" [],
    exactRow 0xD9 0xF8 "fprem" [],
    exactRow 0xD9 0xF9 "fyl2xp1" [],
    exactRow 0xD9 0xFA "fsqrt" [],
    exactRow 0xD9 0xFB "fsincos" [],
    exactRow 0xD9 0xFC "frndint" [],
    exactRow 0xD9 0xFD "fscale" [],
    exactRow 0xD9 0xFE "fsin" [],
    exactRow 0xD9 0xFF "fcos" [],
    exactRow 0xDB 0xE2 "fnclex" [],
    exactRow 0xDB 0xE3 "fninit" [],
    exactRow 0xDA 0xE9 "fucompp" [],
    exactRow 0xDE 0xD9 "fcompp" [],
    exactRow 0xDF 0xE0 "fnstsw" [fixed 2 "ax"]]

def stackArithmetic : List OpcodeRow :=
  ["add", "mul", "com", "comp", "sub", "subr", "div", "divr"].zipIdx.flatMap
    fun (name, n) =>
      [memoryGroup 0xD8 n ("f" ++ name) 4,
        memoryGroup 0xDC n ("f" ++ name) 8,
        memoryGroup 0xDA n ("fi" ++ name) 4,
        memoryGroup 0xDE n ("fi" ++ name) 2,
        registerGroup 0xD8 n ("f" ++ name) [stackRegister]]

def stackMemory : List OpcodeRow :=
  [memoryGroup 0xD9 0 "fld" 4,
    memoryGroup 0xD9 2 "fst" 4,
    memoryGroup 0xD9 3 "fstp" 4,
    memoryGroup 0xD9 4 "fldenv" 28,
    memoryGroup 0xD9 5 "fldcw" 2,
    memoryGroup 0xD9 6 "fnstenv" 28,
    memoryGroup 0xD9 7 "fnstcw" 2,
    memoryGroup 0xDB 0 "fild" 4,
    memoryGroup 0xDB 1 "fisttp" 4,
    memoryGroup 0xDB 2 "fist" 4,
    memoryGroup 0xDB 3 "fistp" 4,
    memoryGroup 0xDB 5 "fld" 10,
    memoryGroup 0xDB 7 "fstp" 10,
    memoryGroup 0xDD 0 "fld" 8,
    memoryGroup 0xDD 1 "fisttp" 8,
    memoryGroup 0xDD 2 "fst" 8,
    memoryGroup 0xDD 3 "fstp" 8,
    memoryGroup 0xDD 4 "frstor" 4,
    memoryGroup 0xDD 6 "fnsave" 4,
    memoryGroup 0xDD 7 "fnstsw" 2,
    memoryGroup 0xDF 0 "fild" 2,
    memoryGroup 0xDF 1 "fisttp" 2,
    memoryGroup 0xDF 2 "fist" 2,
    memoryGroup 0xDF 3 "fistp" 2,
    memoryGroup 0xDF 4 "fbld" 10,
    memoryGroup 0xDF 5 "fild" 8,
    memoryGroup 0xDF 6 "fbstp" 10,
    memoryGroup 0xDF 7 "fistp" 8]

def stackRegisters : List OpcodeRow :=
  [registerGroup 0xDC 0 "fadd" [stackRegister, stackTop],
    registerGroup 0xDC 1 "fmul" [stackRegister, stackTop],
    registerGroup 0xDC 4 "fsubr" [stackRegister, stackTop],
    registerGroup 0xDC 5 "fsub" [stackRegister, stackTop],
    registerGroup 0xDC 6 "fdivr" [stackRegister, stackTop],
    registerGroup 0xDC 7 "fdiv" [stackRegister, stackTop],
    registerGroup 0xD9 0 "fld" [stackRegister],
    registerGroup 0xD9 1 "fxch" [stackTop, stackRegister],
    registerGroup 0xDA 0 "fcmovb" [stackTop, stackRegister],
    registerGroup 0xDA 1 "fcmove" [stackTop, stackRegister],
    registerGroup 0xDA 2 "fcmovbe" [stackTop, stackRegister],
    registerGroup 0xDA 3 "fcmovu" [stackTop, stackRegister],
    registerGroup 0xDB 0 "fcmovnb" [stackTop, stackRegister],
    registerGroup 0xDB 1 "fcmovne" [stackTop, stackRegister],
    registerGroup 0xDB 2 "fcmovnbe" [stackTop, stackRegister],
    registerGroup 0xDB 3 "fcmovnu" [stackTop, stackRegister],
    registerGroup 0xDB 5 "fucomi" [stackRegister],
    registerGroup 0xDB 6 "fcomi" [stackRegister],
    registerGroup 0xDD 0 "ffree" [stackRegister],
    registerGroup 0xDD 2 "fst" [stackRegister],
    registerGroup 0xDD 3 "fstp" [stackRegister],
    registerGroup 0xDD 4 "fucom" [stackRegister],
    registerGroup 0xDD 5 "fucomp" [stackRegister],
    registerGroup 0xDE 0 "faddp" [stackRegister],
    registerGroup 0xDE 1 "fmulp" [stackRegister],
    registerGroup 0xDE 4 "fsubrp" [stackRegister],
    registerGroup 0xDE 5 "fsubp" [stackRegister],
    registerGroup 0xDE 6 "fdivrp" [stackRegister],
    registerGroup 0xDE 7 "fdivp" [stackRegister],
    registerGroup 0xDF 5 "fucompi" [stackRegister],
    registerGroup 0xDF 6 "fcompi" [stackRegister]]

def twoByte : List OpcodeRow :=
  [extendedRow 0x05 "syscall" [],
    extendedRow 0x0B "ud2" [],
    extendedRow 0x31 "rdtsc" [],
    bare (extendedRow 0x77 "emms" []),
    extendedRow 0xA2 "cpuid" [],
    { extendedRow 0x1F "nop" [placeV] with
      pattern := .field 0, locking := .wideMemory },
    extendedRow 0xA3 "bt" [placeV, regV],
    lockable (extendedRow 0xAB "bts" [placeV, regV]),
    lockable (extendedRow 0xB3 "btr" [placeV, regV]),
    lockable (extendedRow 0xBB "btc" [placeV, regV]),
    { extendedRow 0xBA "bt" [placeV, imm8] with pattern := .field 4 },
    lockable { extendedRow 0xBA "bts" [placeV, imm8] with pattern := .field 5 },
    lockable { extendedRow 0xBA "btr" [placeV, imm8] with pattern := .field 6 },
    lockable { extendedRow 0xBA "btc" [placeV, imm8] with pattern := .field 7 },
    extendedRow 0xA4 "shld" [placeV, regV, imm8],
    extendedRow 0xA5 "shld" [placeV, regV, cl],
    extendedRow 0xAC "shrd" [placeV, regV, imm8],
    extendedRow 0xAD "shrd" [placeV, regV, cl],
    extendedRow 0xAF "imul" [regV, placeV],
    lockable (extendedRow 0xB0 "cmpxchg" [place8, reg8]),
    lockable (extendedRow 0xB1 "cmpxchg" [placeV, regV]),
    lockable (extendedRow 0xC0 "xadd" [place8, reg8]),
    lockable (extendedRow 0xC1 "xadd" [placeV, regV]),
    extendedRow 0xB6 "movzx" [regV, place8],
    extendedRow 0xB7 "movzx" [regV, place16],
    extendedRow 0xBE "movsx" [regV, place8],
    extendedRow 0xBF "movsx" [regV, place16],
    requiring .repeatEqual (extendedRow 0xB8 "popcnt" [regV, placeV]),
    requiring .repeatEqual (extendedRow 0xBC "tzcnt" [regV, placeV]),
    requiring .repeatEqual (extendedRow 0xBD "lzcnt" [regV, placeV]),
    extendedRow 0xBC "bsf" [regV, placeV],
    extendedRow 0xBD "bsr" [regV, placeV],
    lockable { extendedRow 0xC7 "cmpxchg8b" [memory (bytes 8)] with
      pattern := .field 1 }]

def vectorArithmetic : List OpcodeRow :=
  [(0x51, "sqrt"), (0x58, "add"), (0x59, "mul"), (0x5C, "sub"), (0x5D, "min"),
    (0x5E, "div"), (0x5F, "max")].flatMap fun (opcode, name) =>
      [requiring .repeatEqual
          (extendedRow opcode (name ++ "ss") [vector, vectorPlace 4]),
        requiring .repeatNotEqual
          (extendedRow opcode (name ++ "sd") [vector, vectorPlace 8]),
        requiring .operandSize
          (extendedRow opcode (name ++ "pd") [vector, vectorPlace 16]),
        bare (extendedRow opcode (name ++ "ps") [vector, vectorPlace 16])]

def vectorMoves : List OpcodeRow :=
  [requiring .repeatEqual (extendedRow 0x10 "movss" [vector, vectorPlace 4]),
    requiring .repeatEqual (extendedRow 0x11 "movss" [vectorPlace 4, vector]),
    requiring .repeatNotEqual (extendedRow 0x10 "movsd" [vector, vectorPlace 8]),
    requiring .repeatNotEqual (extendedRow 0x11 "movsd" [vectorPlace 8, vector]),
    requiring .operandSize (extendedRow 0x10 "movupd" [vector, vectorPlace 16]),
    requiring .operandSize (extendedRow 0x11 "movupd" [vectorPlace 16, vector]),
    bare (extendedRow 0x10 "movups" [vector, vectorPlace 16]),
    bare (extendedRow 0x11 "movups" [vectorPlace 16, vector]),
    bare (extendedRow 0x28 "movaps" [vector, vectorPlace 16]),
    requiring .operandSize
      (extendedRow 0x28 "movapd" [vector, vectorPlace 16]),
    bare (extendedRow 0x29 "movaps" [vectorPlace 16, vector]),
    requiring .operandSize
      (extendedRow 0x29 "movapd" [vectorPlace 16, vector]),
    bare (extendedRow 0x54 "andps" [vector, vectorPlace 16]),
    requiring .operandSize
      (extendedRow 0x54 "andpd" [vector, vectorPlace 16]),
    bare (extendedRow 0x56 "orps" [vector, vectorPlace 16]),
    requiring .operandSize
      (extendedRow 0x56 "orpd" [vector, vectorPlace 16]),
    bare (extendedRow 0x57 "xorps" [vector, vectorPlace 16]),
    requiring .operandSize
      (extendedRow 0x57 "xorpd" [vector, vectorPlace 16]),
    requiring .operandSize (extendedRow 0x2E "ucomisd" [vector, vectorPlace 8]),
    requiring .operandSize (extendedRow 0x2F "comisd" [vector, vectorPlace 16]),
    bare (extendedRow 0x2E "ucomiss" [vector, vectorPlace 4]),
    bare (extendedRow 0x2F "comiss" [vector, vectorPlace 4]),
    requiring .repeatEqual (extendedRow 0x2A "cvtsi2ss" [vector, place32]),
    requiring .repeatNotEqual (extendedRow 0x2A "cvtsi2sd" [vector, place32]),
    requiring .repeatEqual (extendedRow 0x2C "cvttss2si" [reg32, vectorPlace 4]),
    requiring .repeatNotEqual
      (extendedRow 0x2C "cvttsd2si" [reg32, vectorPlace 8]),
    requiring .repeatEqual (extendedRow 0x5A "cvtss2sd" [vector, vectorPlace 4]),
    requiring .repeatNotEqual
      (extendedRow 0x5A "cvtsd2ss" [vector, vectorPlace 8]),
    bare (extendedRow 0xC6 "shufps" [vector, vectorPlace 16, imm8]),
    requiring .operandSize
      (extendedRow 0xC6 "shufpd" [vector, vectorPlace 16, imm8]),
    requiring .operandSize (extendedRow 0x6E "movd" [vector, place32]),
    requiring .repeatEqual (extendedRow 0x7E "movq" [vector, vectorPlace 8]),
    requiring .operandSize (extendedRow 0x7E "movd" [place32, vector]),
    requiring .operandSize (extendedRow 0xD6 "movq" [vectorPlace 8, vector]),
    requiring .repeatEqual (extendedRow 0x6F "movdqu" [vector, vectorPlace 16]),
    requiring .repeatEqual (extendedRow 0x7F "movdqu" [vectorPlace 16, vector]),
    requiring .operandSize (extendedRow 0x6F "movdqa" [vector, vectorPlace 16]),
    requiring .operandSize (extendedRow 0x7F "movdqa" [vectorPlace 16, vector]),
    requiring .operandSize (extendedRow 0xEF "pxor" [vector, vectorPlace 16])]

def pause : OpcodeRow :=
  { requiring .repeatEqual (row 0x90 "pause" []) with narrowMnemonic := none }

/-- All rows; of the rows that fit an instruction the first one counts. -/
def rows : List OpcodeRow :=
  pause :: stackExact ++ arithmetic ++ conditional ++ opcodeRegisters ++
    segments ++ shifts ++ strings ++ oneByte ++ stackArithmetic ++
    stackMemory ++ stackRegisters ++ twoByte ++ vectorArithmetic ++ vectorMoves

end BinMatch.X86.OpcodeTable
