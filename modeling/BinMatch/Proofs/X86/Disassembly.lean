import BinMatch.Proofs.X86.Rendering

/-!
# Instructions at their addresses

Apart from its address an instruction is decided by the bytes that encode it, and
a stream of instructions is decoded one encoding after the other.  Where each is
reported behind the bytes in front of it, decoding is complete when no byte is left.
-/

namespace BinMatch.X86

/-- Taking the address out of a target leaves the distance to it, also where the
target went round the address space. -/
theorem signedWithin_target_sub (stop distance : Int) :
    signedWithin 4 ((stop + distance) % 0x100000000 - stop) =
      signedWithin 4 distance := by
  have hwidth : Nat.pow 2 (8 * 4) = 0x100000000 := rfl
  have hmod : (0x100000000 : Int) = (0x100000000 : Nat) := rfl
  rw [signedWithin, signedWithin, hwidth, hmod, Int.emod_sub_bmod,
    Int.add_comm stop, Int.add_sub_cancel]

namespace Encoding

/-- What an operand is brought to, wherever its instruction stands. -/
def operand (e : Encoding) : EncodedOperand → Operand
  | .plain op => (e.atAddress 0 0).operandOf op
  | .ahead distance => .immediate 4 (signedWithin 4 distance) .distance

theorem operandOf_raw {e : Encoding} {op : EncodedOperand}
    (h : op.isAhead = e.isRelativeBranch) (address : Int) (size : Nat) :
    (e.atAddress address size).operandOf (op.raw (address + size)) = e.operand op := by
  cases op with
  | plain op =>
    cases op with
    | immediate size' value =>
      have hbranch : ¬ e.isRelativeBranch = true := by rw [← h]; exact Bool.false_ne_true
      have hbranch' : ¬ (e.atAddress address size).isRelativeBranch = true := hbranch
      have hbranch'' : ¬ (e.atAddress 0 0).isRelativeBranch = true := hbranch
      simp only [operand, EncodedOperand.raw, RawInstruction.operandOf,
        RawInstruction.immediateOf, if_neg hbranch', if_neg hbranch'']
      rfl
    | _ => rfl
  | ahead distance =>
    have hbranch : (e.atAddress address size).isRelativeBranch = true := h.symm
    simp only [operand, EncodedOperand.raw, RawInstruction.operandOf,
      RawInstruction.immediateOf, if_pos hbranch]
    exact congrArg (Operand.immediate 4 · .distance) (signedWithin_target_sub _ distance)

/-- The instruction of `size` bytes that an encoding stands for at an address. -/
def instruction (e : Encoding) (address : Int) (size : Nat) : Instruction :=
  { address
    length := size
    mnemonic := e.mnemonic
    opcode := e.opcode
    regField := (e.modrm >>> 3 &&& 7).toNat
    operands := e.operands.map e.operand }

theorem Settled.toInstruction {e : Encoding} (h : e.Settled) (address : Int)
    (size : Nat) :
    (e.atAddress address size).toInstruction = e.instruction address size := by
  have hoperands : (e.atAddress address size).operands.map
      (e.atAddress address size).operandOf = e.operands.map e.operand := by
    rw [atAddress, List.map_map]
    exact List.map_congr_left fun op hop => operandOf_raw (h op hop) address size
  rw [RawInstruction.toInstruction, hoperands]
  rfl

end Encoding

/-! ## Instructions one behind the other -/

/-- Number of bytes that the instructions take. -/
def byteCount : List Instruction → Nat
  | [] => 0
  | insn :: insns => insn.length + byteCount insns

/-- The instructions stand one behind the other, the first one at `address`. -/
def Consecutive : Int → List Instruction → Prop
  | _, [] => True
  | address, insn :: insns =>
    insn.address = address ∧ Consecutive (address + insn.length) insns

theorem endOf_eq {address : Int} {insns : List Instruction}
    (h : Consecutive address insns) :
    Disassembly.endOf address insns = address + byteCount insns := by
  induction insns generalizing address with
  | nil => simp [Disassembly.endOf, byteCount]
  | cons insn insns ih =>
    obtain ⟨haddress, hrest⟩ := h
    have hend : Disassembly.endOf address (insn :: insns) =
        Disassembly.endOf (address + insn.length) insns := by
      cases insns with
      | nil => simp [Disassembly.endOf, haddress]
      | cons next insns =>
        rw [Disassembly.endOf, Disassembly.endOf, List.getLast?_cons_cons,
          List.getLast?_cons]
    rw [hend, ih hrest, byteCount]
    omega

/-! ## Streams -/

section Stream

variable [Decoder]

namespace Encodes

variable {bytes : List UInt8} {e : Encoding}

theorem settled (h : Encodes bytes e) : e.Settled :=
  Decoder.settled h

theorem length_pos (h : Encodes bytes e) : 0 < bytes.length :=
  (Decoder.bounds h).1

theorem first_append (h : Encodes bytes e) (rest : List UInt8) :
    Decoder.first (bytes ++ rest) = some (e, bytes.length) := by
  have hown := Decoder.own h rest
  rwa [List.take_length] at hown

/-- Of two fronts of one code only one is an instruction. -/
theorem front_unique {bytes' more more' : List UInt8} {e' : Encoding}
    (h : Encodes bytes e) (h' : Encodes bytes' e') (hcode : bytes ++ more = bytes' ++ more') :
    bytes = bytes' := by
  have hfirst := h.first_append more
  rw [hcode, h'.first_append more', Option.some.injEq, Prod.mk.injEq] at hfirst
  exact (List.append_inj hcode hfirst.2.symm).1

end Encodes

/-- What is decoded is the front of the code. -/
theorem exists_encodes_of_first {code : List UInt8} {e : Encoding} {n : Nat}
    (h : Decoder.first code = some (e, n)) :
    ∃ bytes rest, code = bytes ++ rest ∧ bytes.length = n ∧ Encodes bytes e := by
  have hlength : (code.take n).length = n := by
    rw [List.length_take, Nat.min_eq_left (Decoder.bounds h).2]
  refine ⟨code.take n, code.drop n, (List.take_append_drop n code).symm, hlength, ?_⟩
  have hown := Decoder.own h []
  rw [List.append_nil] at hown
  rwa [Encodes, hlength]

/-- The first instruction is encoded by the front of the code, at any address. -/
theorem decodeFirst_eq_some_iff {code : List UInt8} {address : Int}
    {raw : RawInstruction} :
    decodeFirst code address = some raw ↔
      ∃ bytes rest e, code = bytes ++ rest ∧ Encodes bytes e ∧
        raw = e.atAddress (address % addressCount) bytes.length := by
  rw [decodeFirst, Option.map_eq_some_iff]
  constructor
  · rintro ⟨⟨e, n⟩, hfirst, rfl⟩
    obtain ⟨bytes, rest, rfl, rfl, he⟩ := exists_encodes_of_first hfirst
    exact ⟨bytes, rest, e, rfl, he, rfl⟩
  · rintro ⟨bytes, rest, e, rfl, he, rfl⟩
    exact ⟨(e, bytes.length), he.first_append rest, rfl⟩

theorem decodeFirst_eq_none_iff (code : List UInt8) (address address' : Int) :
    decodeFirst code address = none ↔ decodeFirst code address' = none := by
  simp only [decodeFirst, Option.map_eq_none_iff]

theorem decodeAll_append {bytes : List UInt8} {e : Encoding} (h : Encodes bytes e)
    (rest : List UInt8) (address : Int) :
    decodeAll (bytes ++ rest) address =
      e.instruction (address % addressCount) bytes.length ::
        decodeAll rest (address + bytes.length) := by
  have hfirst : decodeFirst (bytes ++ rest) address =
      some (e.atAddress (address % addressCount) bytes.length) :=
    decodeFirst_eq_some_iff.mpr ⟨bytes, rest, e, rfl, h, rfl⟩
  have hnonempty : ¬ (bytes ++ rest).isEmpty = true := by
    intro hempty
    have hpos := h.length_pos
    rw [List.isEmpty_iff, List.append_eq_nil_iff] at hempty
    rw [hempty.1, List.length_nil] at hpos
    omega
  rw [decodeAll, if_neg hnonempty]
  split
  · rename_i hnone
    rw [hfirst] at hnone
    cases hnone
  · rename_i raw hsome
    rw [hfirst] at hsome
    cases hsome
    rw [h.settled.toInstruction]
    simp [Encoding.atAddress]

/-- Code in which no instruction starts is not decodable at any address. -/
theorem decodeAll_eq_nil {code : List UInt8} {address : Int}
    (h : decodeFirst code address = none) (address' : Int) :
    decodeAll code address' = [] := by
  have hnone := (decodeFirst_eq_none_iff code address address').mp h
  rw [decodeAll]
  split
  · rfl
  · split
    · rfl
    · rename_i raw hsome
      rw [hnone] at hsome
      cases hsome

/-- A stream is left where no instruction starts, or is one encoding and the rest. -/
@[elab_as_elim]
theorem stream_induction {motive : List UInt8 → Int → Prop}
    (stuck : ∀ code address, (∀ address', decodeAll code address' = []) →
      motive code address)
    (step : ∀ bytes rest e address, Encodes bytes e →
      motive rest (address + bytes.length) → motive (bytes ++ rest) address)
    (code : List UInt8) (address : Int) : motive code address := by
  fun_induction decodeAll code address with
  | case1 code address hempty =>
    rw [List.isEmpty_iff.mp hempty]
    exact stuck [] address decodeAll_nil
  | case2 code address _ hnone =>
    exact stuck code address (decodeAll_eq_nil hnone)
  | case3 code address _ raw hsome ih =>
    obtain ⟨bytes, rest, e, rfl, he, rfl⟩ := decodeFirst_eq_some_iff.mp hsome
    simp only [Encoding.atAddress, List.drop_left] at ih
    exact step bytes rest e address he ih

/-! ## Bytes decoded -/

/-- Number of bytes in front of the first one at which no instruction starts. -/
def decodedLength (code : List UInt8) : Nat :=
  byteCount (decodeAll code 0)

theorem byteCount_decodeAll (code : List UInt8) (address : Int) :
    byteCount (decodeAll code address) = decodedLength code := by
  have hcount : ∀ address', byteCount (decodeAll code address) =
      byteCount (decodeAll code address') := by
    induction code, address using stream_induction with
    | stuck code address hstuck =>
      intro address'
      rw [hstuck, hstuck]
    | step bytes rest e address he ih =>
      intro address'
      rw [decodeAll_append he, decodeAll_append he, byteCount, byteCount, ih]
      rfl
  exact hcount 0

/-- In front of the end of the address space no instruction is moved. -/
theorem consecutive_decodeAll {code : List UInt8} {address : Int} (hstart : 0 ≤ address)
    (hstop : address + code.length ≤ addressCount) :
    Consecutive address (decodeAll code address) := by
  induction code, address using stream_induction with
  | stuck code address hstuck =>
    rw [hstuck]
    trivial
  | step bytes rest e address he ih =>
    have hpos := he.length_pos
    rw [List.length_append] at hstop
    have haddress : address % (addressCount : Int) = address :=
      Int.emod_eq_of_lt hstart (by omega)
    rw [decodeAll_append he]
    exact ⟨haddress, ih (by omega) (by omega)⟩

theorem complete_of_consecutive {code : List UInt8} {address : Int}
    (h : Consecutive address (decodeAll code address)) :
    (Disassembly.ofCode code address).complete =
      if decodedLength code < code.length then
        .error (.undecodable (address + decodedLength code))
      else .ok (decodeAll code address) := by
  have hend := endOf_eq h
  rw [byteCount_decodeAll] at hend
  have hshort : address + (decodedLength code : Int) - address < code.length ↔
      decodedLength code < code.length := by omega
  simp only [Disassembly.complete, Disassembly.ofCode, hend, hshort]
  by_cases hdecoded : decodedLength code < code.length
  · simp only [if_pos hdecoded]
  · simp only [if_neg hdecoded]

end Stream

end BinMatch.X86
