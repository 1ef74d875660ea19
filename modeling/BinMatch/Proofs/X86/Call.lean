import BinMatch.Proofs.X86.Disassembly
import BinMatch.Thunk
import BinMatch.X86.TableDecoder

/-!
# Direct calls

A decoded call has the distance to its target as its one operand and is shown by the
label of that target.  The names by which code is shown therefore count at the targets
of its calls and nowhere else.
-/

namespace BinMatch.X86

theorem Encodes.operands_call [Decoder] {bytes : List UInt8} {e : Encoding}
    (h : Encodes bytes e) (hcall : e.opcode = callOpcode) :
    ∃ d, e.operands = [.ahead d] := by
  obtain ⟨front, distance, rfl, hlength, hany⟩ := Decoder.call h hcall
  obtain ⟨d, hd⟩ := hany distance hlength
  rw [h, Option.some.injEq, Prod.mk.injEq] at hd
  exact ⟨d, congrArg Encoding.operands hd.1⟩

namespace Instruction

/-- The one operand of a call is the distance to its target. -/
def CallsOnce (insn : Instruction) : Prop :=
  insn.opcode = callOpcode → ∃ d, insn.operands = [.immediate 4 d .distance]

section Line

variable {insn : Instruction} {opts : LineOptions} {names names' : AddressMap}

theorem operandText_of_ne_call (h : insn.opcode ≠ callOpcode) (op : Operand) :
    insn.operandText opts names op = insn.operandText opts names' op := by
  cases op with
  | immediate size value role => simp only [operandText, immediateText, if_neg h]
  | _ => rfl

theorem opcode_of_callTarget? {target : Int} (h : callTarget? insn = some target) :
    insn.opcode = callOpcode := by
  by_cases hcall : insn.opcode = callOpcode
  · exact hcall
  · simp [callTarget?, hcall] at h

theorem CallsOnce.exists_callTarget? (h : insn.CallsOnce) (hcall : insn.opcode = callOpcode) :
    ∃ target, callTarget? insn = some target := by
  obtain ⟨d, hd⟩ := h hcall
  refine ⟨insn.target d, ?_⟩
  simp only [callTarget?, hcall, hd, if_true]

theorem CallsOnce.operandTexts (h : insn.CallsOnce) {target : Int}
    (htarget : callTarget? insn = some target) :
    insn.operands.map (insn.operandText opts names) = [callLabel names target] := by
  have hcall := opcode_of_callTarget? htarget
  obtain ⟨d, hoperands⟩ := h hcall
  simp only [callTarget?, hcall, hoperands, if_true, Option.some.injEq] at htarget
  simp only [hoperands, List.map_cons, List.map_nil, operandText, immediateText, hcall,
    if_true, htarget]

/-- Names that agree at the target of a call show an instruction by the same line. -/
theorem CallsOnce.line_eq (h : insn.CallsOnce)
    (hnames : ∀ target, callTarget? insn = some target →
      names.get? target = names'.get? target) :
    insn.line opts names = insn.line opts names' := by
  have hoperands : insn.operands.map (insn.operandText opts names) =
      insn.operands.map (insn.operandText opts names') := by
    by_cases hcall : insn.opcode = callOpcode
    · obtain ⟨target, htarget⟩ := h.exists_callTarget? hcall
      rw [h.operandTexts htarget, h.operandTexts htarget, callLabel, callLabel,
        hnames _ htarget]
    · exact List.map_congr_left fun op _ => operandText_of_ne_call hcall op
  rw [line, line, hoperands]

end Line

end Instruction

theorem callsOnce_of_mem_decodeAll [Decoder] {code : List UInt8} {address : Int} :
    ∀ insn ∈ decodeAll code address, insn.CallsOnce := by
  induction code, address using stream_induction with
  | stuck code address hstuck => simp [hstuck]
  | step bytes rest e address he ih =>
    rw [decodeAll_append he, List.forall_mem_cons]
    refine ⟨fun hcall => ?_, ih⟩
    obtain ⟨d, hd⟩ := he.operands_call hcall
    exact ⟨signedWithin 4 d, by rw [Encoding.instruction, hd]; rfl⟩

/-! ## Direct jumps -/

theorem encodes_jump {distance : List UInt8} (h : distance.length = 4) :
    Encodes (jumpOpcode :: distance) (Encoding.jump distance) := by
  refine encodes_iff_reads.mpr ⟨?_, Encoding.reads_jump h⟩
  rw [List.length_cons, h]
  decide

/-- A distance may be cut to its width, since a target has no more. -/
theorem Instruction.target_signedWithin (insn : Instruction) (d : Int) :
    insn.target (signedWithin 4 d) = (insn.address + d + insn.length) % 0x100000000 := by
  have hwidth : Nat.pow 2 (8 * 4) = 0x100000000 := rfl
  have hd : Int.bmod d 0x100000000 % (0x100000000 : Nat) = d % (0x100000000 : Nat) :=
    Int.bmod_emod
  simp only [target, unsignedWithin, signedWithin, hwidth]
  omega

/-- The address space has a whole number of targets, so that a wrap in it does not move
a target. -/
theorem target_instruction (e : Encoding) (address d : Int) (size : Nat) :
    (e.instruction (address % addressCount) size).target (signedWithin 4 d) =
      (address + d + size) % 0x100000000 := by
  have hcount : addressCount = 0x10000000000000000 := rfl
  simp only [Instruction.target_signedWithin, Encoding.instruction, hcount]
  omega

end BinMatch.X86
