import BinMatch.Proofs.Text.Hex
import BinMatch.Proofs.X86.Call

/-!
# One line for each instruction

Of all that an instruction line is made of only the label of a call is not the decoder's
own, and nothing of the decoder's own breaks a line.
-/

namespace BinMatch.X86

open Text.Line (Unbroken unbroken_append unbroken_append_iff unbroken_empty
  unbroken_intercalate_iff unbroken_toString)

/-! ## Names of the opcode table -/

/-- The name of a fixed register, empty for any other form. -/
def OperandForm.fixedName : OperandForm → String
  | .fixed _ name => name
  | _ => ""

theorem OpcodeTable.isVisible_of_mem : ∀ row ∈ rows, Text.Line.isVisible row.mnemonic = true ∧
    (∀ name ∈ row.narrowMnemonic, Text.Line.isVisible name = true) ∧
    ∀ form ∈ row.operands, Text.Line.isVisible form.fixedName = true := by
  decide +kernel

/-! ## Names of registers -/

theorem unbroken_getD {names : List String} (h : ∀ name ∈ names, Unbroken name) (n : Nat) :
    Unbroken (names.getD n "") := by
  rw [List.getD_eq_getElem?_getD]
  cases hname : names[n]? with
  | none => decide
  | some name => exact h name (List.mem_of_getElem? hname)

theorem unbroken_generalRegister (size n : Nat) : Unbroken (generalRegister size n) := by
  unfold generalRegister
  apply unbroken_getD
  split
  · decide
  · split <;> decide

theorem unbroken_segmentRegister {n : Nat} {name : String} (h : segmentRegister? n = some name) :
    Unbroken name := by
  have hall : ∀ name ∈ ["es", "cs", "ss", "ds", "fs", "gs"], Unbroken name := by decide
  exact hall name (List.mem_of_getElem? h)

theorem unbroken_vectorRegister (n : Nat) : Unbroken (vectorRegister n) :=
  unbroken_append (by decide) (unbroken_toString n)

theorem unbroken_stackRegisterName (n : Nat) : Unbroken (stackRegisterName n) :=
  unbroken_append (unbroken_append (by decide) (unbroken_toString n)) (by decide)

/-! ## Names in an encoding -/

/-- No register name in the operand breaks a line. -/
def EncodedOperand.OneLine : EncodedOperand → Prop
  | .plain (.register _ name) => Unbroken name
  | .plain (.memory _ m) => Unbroken m.segment ∧ Unbroken m.base ∧ Unbroken m.index
  | _ => True

structure Encoding.OneLine (e : Encoding) : Prop where
  mnemonic : Unbroken e.mnemonic
  operands : ∀ op ∈ e.operands, op.OneLine

/-- No register name in the addressing mode breaks a line. -/
def Place.OneLine : Place → Prop
  | .register _ => True
  | .memory base index _ _ => Unbroken base ∧ Unbroken index

/-! ## Prefixes -/

theorem unbroken_segmentOf {b : UInt8} {segment : String}
    (h : Prefixes.segmentOf? b = some segment) : Unbroken segment := by
  have hall : ∀ entry ∈ [((0x26 : UInt8), "es"), (0x2E, "cs"), (0x36, "ss"), (0x3E, "ds"),
      (0x64, "fs"), (0x65, "gs")], Unbroken entry.2 := by decide
  obtain ⟨before, after, hlist, -⟩ := List.lookup_eq_some_iff.mp h
  exact hall (b, segment) (hlist ▸ by simp)

theorem unbroken_effect {b : UInt8} {p : Prefixes} {add : Prefixes → UInt8 → Prefixes}
    (h : Prefixes.effect? b = some add) (hp : Unbroken p.segment) (after : UInt8) :
    Unbroken (add p after).segment := by
  unfold Prefixes.effect? at h
  split at h
  · cases h
    exact hp
  · split at h
    · cases h
      exact hp
    · split at h
      · cases h
        exact hp
      · rename_i hsegment
        cases h
        exact unbroken_segmentOf hsegment
      · cases h

theorem yields_prefixedFrom {n : Nat} {p : Prefixes} (hp : Unbroken p.segment) (b : UInt8) :
    (prefixedFrom n p b).Yields fun q => Unbroken q.1.segment := by
  induction n generalizing p b with
  | zero => exact Reader.yields_fail
  | succ n ih =>
    rw [prefixedFrom]
    split
    · rename_i add hadd
      exact Reader.yields_next fun after => ih (unbroken_effect hadd hp after) after
    · exact Reader.yields_pure hp

theorem yields_prefixed (n : Nat) : (prefixed n).Yields fun q => Unbroken q.1.segment :=
  Reader.yields_next fun b => yields_prefixedFrom (by decide) b

/-! ## Addressing modes -/

namespace ModRM

theorem yields_readScaled (b mode : UInt8) :
    (readScaled b mode).Yields fun m => m.place.OneLine := by
  refine Reader.yields_bind fun sib => ?_
  have hindex : Unbroken (if (sib >>> 3 &&& 7).toNat = 4 then ""
      else generalRegister 4 (sib >>> 3 &&& 7).toNat) := by
    split
    · decide
    · exact unbroken_generalRegister _ _
  dsimp only
  split
  · exact Reader.yields_bind fun disp => Reader.yields_pure ⟨by decide, hindex⟩
  · exact Reader.yields_bind fun disp =>
      Reader.yields_pure ⟨unbroken_generalRegister _ _, hindex⟩

theorem yields_read (b : UInt8) : (read b).Yields fun m => m.place.OneLine := by
  unfold read
  dsimp only
  split
  · exact Reader.yields_pure trivial
  · split
    · exact yields_readScaled _ _
    · split
      · exact Reader.yields_bind fun disp => Reader.yields_pure ⟨by decide, by decide⟩
      · exact Reader.yields_bind fun disp =>
          Reader.yields_pure ⟨unbroken_generalRegister _ _, by decide⟩

end ModRM

/-! ## Operands -/

namespace OperandContext

/-- What the operands share breaks no line. -/
structure OneLine (ctx : OperandContext) : Prop where
  segment : Unbroken ctx.segment
  place : ctx.modrm.place.OneLine

variable {ctx : OperandContext}

theorem OneLine.placeOf (h : ctx.OneLine) {register : Nat → String}
    (hregister : ∀ n, Unbroken (register n)) (size registerSize : Nat) :
    (EncodedOperand.plain (ctx.placeOf size register registerSize)).OneLine := by
  have hplace := h.place
  unfold OperandContext.placeOf
  cases hmode : ctx.modrm.place with
  | register n => exact hregister n
  | memory base index scale disp =>
    rw [hmode] at hplace
    exact ⟨h.segment, hplace⟩

theorem yields_single {op : EncodedOperand} (h : op.OneLine) :
    (pure [op] : Reader (List EncodedOperand)).Yields fun ops => ∀ op ∈ ops, op.OneLine :=
  Reader.yields_pure (List.forall_mem_singleton.mpr h)

theorem OneLine.yields_read (h : ctx.OneLine) {form : OperandForm}
    (hform : Unbroken form.fixedName) :
    (ctx.read form).Yields fun ops => ∀ op ∈ ops, op.OneLine := by
  cases form with
  | place w | memory w => exact yields_single (h.placeOf (unbroken_generalRegister _) _ _)
  | register w | opcodeRegister w | accumulator =>
    exact yields_single (unbroken_generalRegister _ _)
  | segment =>
    exact (Reader.yields_ofOption fun name => unbroken_segmentRegister).bind
      fun name hname => yields_single hname
  | fixed size name => exact yields_single hform
  | immediate encoded w signed =>
    cases signed with
    | false => exact Reader.yields_bind fun v => yields_single trivial
    | true => exact Reader.yields_bind fun v => yields_single trivial
  | one w => exact yields_single trivial
  | distance count => exact Reader.yields_bind fun d => yields_single trivial
  | absolute w =>
    exact Reader.yields_bind fun v => yields_single ⟨h.segment, unbroken_empty, unbroken_empty⟩
  | farPointer =>
    refine Reader.yields_bind fun offset => Reader.yields_bind fun selector => ?_
    refine Reader.yields_pure (List.forall_mem_cons.mpr ⟨trivial, ?_⟩)
    exact List.forall_mem_singleton.mpr trivial
  | destination w => exact yields_single ⟨by decide, by decide, by decide⟩
  | source w =>
    have hindex : Unbroken "esi" := by decide
    exact yields_single ⟨h.segment, hindex, unbroken_empty⟩
  | vector => exact yields_single (unbroken_vectorRegister _)
  | vectorPlace size => exact yields_single (h.placeOf unbroken_vectorRegister _ _)
  | stackTop => exact yields_single (unbroken_stackRegisterName 0)
  | stackRegister => exact yields_single (h.placeOf unbroken_stackRegisterName _ _)

theorem OneLine.yields_readAll (h : ctx.OneLine) {forms : List OperandForm}
    (hforms : ∀ form ∈ forms, Unbroken form.fixedName) :
    (ctx.readAll forms).Yields fun ops => ∀ op ∈ ops, op.OneLine := by
  induction forms with
  | nil => exact Reader.yields_pure (by simp)
  | cons form forms ih =>
    rw [List.forall_mem_cons] at hforms
    refine (h.yields_read hforms.1).bind fun first hfirst => ?_
    refine (ih hforms.2).bind fun others hothers => Reader.yields_pure ?_
    exact List.forall_mem_append.mpr ⟨hfirst, hothers⟩

end OperandContext

/-! ## Encodings -/

namespace Encoding

theorem unbroken_elisionWord (r : RepeatPrefix) : Unbroken (elisionWord r) := by
  cases r <;> decide

theorem unbroken_repeatWord (r : RepeatPrefix) (family : NameFamily) :
    Unbroken (repeatWord r family) := by
  cases family <;> cases r <;> decide

theorem unbroken_lockWords (p : Prefixes) (inMemory : Bool) (family : NameFamily) :
    Unbroken (lockWords p inMemory family) := by
  unfold lockWords
  split
  · refine unbroken_append ?_ (by decide)
    cases p.elision with
    | none => decide
    | some r => exact unbroken_elisionWord r
  · cases p.repeated with
    | none => exact unbroken_empty
    | some r =>
      rw [Option.elim_some]
      split
      · exact unbroken_elisionWord r
      · exact unbroken_repeatWord r family

theorem unbroken_nameOf (p : Prefixes) (inMemory : Bool) (family : NameFamily) {name : String}
    (h : Unbroken name) : Unbroken (nameOf p inMemory family name) := by
  refine unbroken_append (unbroken_append (unbroken_lockWords p inMemory family) ?_) h
  split <;> decide

theorem yields_readRow_oneLine {p : Prefixes} {modrm : ModRM} {row : OpcodeRow} (opcode : UInt8)
    (hp : Unbroken p.segment) (hmodrm : modrm.place.OneLine) (hrow : row ∈ OpcodeTable.rows) :
    (readRow p opcode modrm row).Yields OneLine := by
  obtain ⟨hname, hnarrow, hforms⟩ := OpcodeTable.isVisible_of_mem row hrow
  rw [readRow]
  split
  · exact Reader.yields_fail
  · refine Reader.Yields.bind (P := Unbroken) (Reader.yields_ofOption fun name hsome => ?_)
      fun name hunbroken => ?_
    · refine Text.Line.unbroken_of_isVisible ?_
      split at hsome
      · exact hnarrow name hsome
      · cases hsome
        exact hname
    · refine (OperandContext.OneLine.yields_readAll ⟨hp, hmodrm⟩ fun form hform =>
        Text.Line.unbroken_of_isVisible (hforms form hform)).bind fun ops hops => ?_
      exact Reader.yields_pure ⟨unbroken_nameOf _ _ _ hunbroken, hops⟩

theorem yields_readOpcode_oneLine {p : Prefixes} (hp : Unbroken p.segment) (extended : Bool)
    (opcode : UInt8) : (readOpcode p extended opcode).Yields OneLine :=
  yields_readOpcode_of_rows ModRM.yields_read trivial fun _ _ hmodrm hrow _ _ =>
    yields_readRow_oneLine opcode hp hmodrm hrow

theorem yields_read_oneLine : read.Yields OneLine := by
  refine (yields_prefixed maxLength).bind fun ⟨p, first⟩ hp => ?_
  by_cases hlead : first = Prefixes.leadByte
  · simp only [if_pos hlead]
    exact Reader.yields_bind fun second => yields_readOpcode_oneLine hp _ _
  · simp only [if_neg hlead]
    exact yields_readOpcode_oneLine hp _ _

end Encoding

/-! ## Instructions -/

/-- No register name in the operand breaks a line. -/
def Operand.OneLine : Operand → Prop
  | .register _ name => Unbroken name
  | .memory _ m => Unbroken m.segment ∧ Unbroken m.base ∧ Unbroken m.index
  | _ => True

theorem EncodedOperand.OneLine.operand {op : EncodedOperand} (h : op.OneLine) (e : Encoding) :
    (e.operand op).OneLine := by
  cases op with
  | plain op =>
    cases op with
    | register size name => exact h
    | memory size place => exact h
    | immediate size value =>
      simp only [Encoding.operand, RawInstruction.operandOf, RawInstruction.immediateOf]
      split
      · trivial
      · split <;> trivial
    | other size => trivial
  | ahead distance => trivial

namespace Instruction

/-- Nothing of the decoder's own breaks the line of the instruction. -/
structure OneLine (insn : Instruction) : Prop where
  mnemonic : Unbroken insn.mnemonic
  operands : ∀ op ∈ insn.operands, op.OneLine

end Instruction

theorem Encoding.OneLine.instruction {e : Encoding} (h : e.OneLine) (address : Int)
    (size : Nat) : (e.instruction address size).OneLine where
  mnemonic := h.mnemonic
  operands := by
    intro op hop
    obtain ⟨encoded, hencoded, rfl⟩ := List.mem_map.mp hop
    exact (h.operands encoded hencoded).operand e

theorem oneLine_of_mem_decodeAll {code : List UInt8} {address : Int} :
    ∀ insn ∈ decodeAll code address, insn.OneLine := by
  induction code, address using stream_induction with
  | stuck code address hstuck => simp [hstuck]
  | step bytes rest e address he ih =>
    rw [decodeAll_append he, List.forall_mem_cons]
    obtain ⟨-, hreads⟩ := encodes_iff_reads.mp he
    exact ⟨(Encoding.yields_read_oneLine hreads).instruction _ _, ih⟩

/-! ## Lines -/

theorem unbroken_pointerWord (size : Nat) : Unbroken (pointerWord size) := by
  unfold pointerWord
  split
  case h_9 => exact unbroken_append (by decide) (unbroken_toString _)
  all_goals decide

namespace Instruction

section Line

variable {insn : Instruction} {opts : LineOptions} {names : AddressMap}

theorem unbroken_registerSum {m : Memory} (hbase : Unbroken m.base)
    (hindex : Unbroken m.index) : Unbroken (registerSum m) := by
  have hscaled : Unbroken (if m.scale = 1 then m.index
      else m.index ++ "*" ++ toString m.scale) := by
    split
    · exact hindex
    · exact unbroken_append (unbroken_append hindex (by decide)) (unbroken_toString _)
  unfold registerSum
  dsimp only
  split
  · exact hscaled
  · split
    · exact hbase
    · exact unbroken_append (unbroken_append hbase (by decide)) hscaled

theorem unbroken_dispTerm (size : Nat) (m : Memory) : Unbroken (dispTerm opts size m) := by
  unfold dispTerm
  split
  · refine unbroken_append (by split <;> decide) ?_
    split
    · exact Text.Hex.unbroken_address _
    · exact unbroken_append (unbroken_append (by decide) (unbroken_toString size)) (by decide)
  · exact unbroken_empty

theorem unbroken_memoryText {m : Memory} (h : Operand.OneLine (.memory 0 m)) (size : Nat) :
    Unbroken (insn.memoryText opts size m) := by
  obtain ⟨hsegment, hbase, hindex⟩ := h
  have haddress : Unbroken (insn.effectiveAddress opts size m) := by
    unfold effectiveAddress
    split
    · split
      · decide
      · split
        · decide
        · exact Text.Hex.unbroken_address _
    · exact unbroken_append (unbroken_registerSum hbase hindex) (unbroken_dispTerm size m)
  have hprefix : Unbroken (if m.segment.isEmpty then "" else m.segment ++ ":") := by
    split
    · exact unbroken_empty
    · exact unbroken_append hsegment (by decide)
  have hplace := unbroken_append (unbroken_append (unbroken_append hprefix
    (by decide : Unbroken "[")) haddress) (by decide : Unbroken "]")
  unfold memoryText
  dsimp only
  split
  · exact hplace
  · exact unbroken_append (unbroken_append (unbroken_pointerWord size) (by decide)) hplace

theorem unbroken_operandText (hcall : insn.opcode ≠ callOpcode) {op : Operand}
    (h : op.OneLine) : Unbroken (insn.operandText opts names op) := by
  cases op with
  | register size name => exact h
  | immediate size value role =>
    simp only [operandText, immediateText, if_neg hcall]
    split
    · exact unbroken_append (by decide) (Text.Hex.unbroken_delta value)
    · split
      · exact Text.Hex.unbroken_address value
      · decide
    · split
      · exact unbroken_append (unbroken_append (by decide) (unbroken_toString size)) (by decide)
      · split
        · exact unbroken_append (by decide) (Text.Hex.unbroken_address _)
        · exact Text.Hex.unbroken_address value
  | memory size m => exact unbroken_memoryText h size
  | other size =>
    show Unbroken "?"
    decide

theorem unbroken_line_iff_operands (h : Unbroken insn.mnemonic) :
    Unbroken (insn.line opts names) ↔
      ∀ text ∈ insn.operands.map (insn.operandText opts names), Unbroken text := by
  have hprefix : Unbroken (Text.Hex.signed insn.address ++ ": ") :=
    unbroken_append (Text.Hex.unbroken_signed _) (by decide)
  rw [← unbroken_intercalate_iff (by decide : Unbroken ", ")]
  unfold line
  generalize ", ".intercalate (insn.operands.map (insn.operandText opts names)) = operands
  have htext : Unbroken (if operands.isEmpty then insn.mnemonic
      else insn.mnemonic ++ " " ++ operands) ↔ Unbroken operands := by
    split
    · rename_i hempty
      rw [String.isEmpty_iff.mp hempty]
      exact iff_of_true h unbroken_empty
    · have hfront : Unbroken (insn.mnemonic ++ " ") := unbroken_append h (by decide)
      rw [unbroken_append_iff, and_iff_right hfront]
  dsimp only
  split
  · rw [unbroken_append_iff, htext, and_iff_right hprefix]
  · exact htext

/-- Only the label of a call can break the line of an instruction. -/
theorem unbroken_line_iff (h : insn.OneLine) (hcalls : insn.CallsOnce) :
    Unbroken (insn.line opts names) ↔
      ∀ target, callTarget? insn = some target → Unbroken (callLabel names target) := by
  rw [unbroken_line_iff_operands h.mnemonic]
  by_cases hcall : insn.opcode = callOpcode
  · obtain ⟨target, htarget⟩ := hcalls.exists_callTarget? hcall
    rw [hcalls.operandTexts htarget, List.forall_mem_singleton]
    simp [htarget]
  · constructor
    · intro _ target htarget
      exact absurd (opcode_of_callTarget? htarget) hcall
    · rintro - text htext
      obtain ⟨op, hop, rfl⟩ := List.mem_map.mp htext
      exact unbroken_operandText hcall (h.operands op hop)

end Line

end Instruction

end BinMatch.X86
