import BinMatch.Log
import BinMatch.Side
import BinMatch.X86.Line

/-!
# Jump thunks

A call may go to a lone jump that leads on to the function itself.  Such a thunk
gets the entry of the function that it leads to, so that the call is shown by
that function's name.
-/

namespace BinMatch

open X86

def thunkLength : Nat := 5

/-- Where the thunk at `address` leads, if a lone jump stands there. -/
def thunkDestination [Decoder] (image : Image) (virtualBase address : Int) :
    Option Int :=
  let offset := address - virtualBase
  if image.covers offset thunkLength then
    let code := (image.bytes.drop offset.toNat).take thunkLength
    if code.head? = some jumpOpcode then
      match decodeFirst code address with
      | some raw =>
        let insn := raw.toInstruction
        match insn.operands with
        | .immediate _ distance _ :: _ =>
          if insn.length = thunkLength then some (insn.target distance) else none
        | _ => none
      | none => none
    else none
  else none

def callTarget? (insn : Instruction) : Option Int :=
  if insn.opcode = callOpcode then
    match insn.operands with
    | .immediate _ distance _ :: _ => some (insn.target distance)
    | _ => none
  else none

/-- `found` with an entry for the thunk that an instruction calls; where thunks
lead is looked up in `names` alone. -/
def addThunk [Decoder] (image : Image) (virtualBase : Int) (names found : AddressMap)
    (insn : Instruction) : Logged AddressMap :=
  match callTarget? insn with
  | none => pure found
  | some target =>
    if found.contains target then pure found
    else
      match (thunkDestination image virtualBase target).bind names.get? with
      | none => pure found
      | some d => do
        Logged.tell (.thunkResolved target d.name)
        pure (found.put target d)

def resolveThunks [Decoder] (image : Image) (virtualBase : Int) (names : AddressMap)
    (code : List UInt8) (address : Int) : Checked AddressMap := do
  let d := Disassembly.ofCode code address
  let found ← ExceptT.lift
    (d.instructions.foldlM (addThunk image virtualBase names) names)
  let _ ← Checked.ofExcept d.complete
  pure found

end BinMatch
