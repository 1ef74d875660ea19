import BinMatch.Proofs.X86.Reader
import BinMatch.X86.Encoding

/-!
# What an encoding says about addresses

An operand depends on where its instruction stands only if it is encoded as a
distance.  The table has distances for the opcodes of relative branches and for no
others, so that taking the distance back out of the target always undoes what the
address put in.  A call ends in the four bytes of its distance, and any four bytes
are one.
-/

namespace BinMatch.X86

def OperandForm.isDistance : OperandForm → Bool
  | .distance _ => true
  | _ => false

/-- What the instructions of a row are encoded by, apart from their operands. -/
def OpcodeRow.bareEncoding (row : OpcodeRow) : Encoding :=
  { mnemonic := row.mnemonic
    opcode := if row.extended then Prefixes.leadByte else row.opcode
    secondOpcode := if row.extended then row.opcode else 0
    modrm := 0
    sib := 0
    operands := [] }

namespace OpcodeTable

theorem isDistance_eq_isRelativeBranch :
    ∀ row ∈ rows, ∀ form ∈ row.operands,
      form.isDistance = row.bareEncoding.isRelativeBranch := by
  decide +kernel

/-- A row whose instructions lead to a target four bytes of distance away. -/
def branchRow (opcode : UInt8) (name : String) : OpcodeRow :=
  named .branch (row opcode name [.distance 4])

def callRow : OpcodeRow :=
  branchRow callOpcode "call"

def jumpRow : OpcodeRow :=
  branchRow jumpOpcode "jmp"

/-- The row stands for its opcode alone, whatever the prefixes. -/
def StandsAlone (row : OpcodeRow) : Prop :=
  ∀ p : Prefixes, (rows.filter fun other =>
    other.opcode = row.opcode && other.extended = false && p.meets other.demand) = [row]

theorem standsAlone_branchRow {opcode : UInt8} {name : String}
    (h : (rows.filter fun other =>
      decide (other.opcode = opcode) && decide (other.extended = false)) =
      [branchRow opcode name]) :
    StandsAlone (branchRow opcode name) := by
  intro p
  calc
    _ = (rows.filter fun other =>
          decide (other.opcode = opcode) && decide (other.extended = false)).filter
          fun other => p.meets other.demand := by
        rw [List.filter_filter]
        exact List.filter_congr fun other _ => Bool.and_comm _ _
    _ = [branchRow opcode name].filter fun other => p.meets other.demand := by rw [h]
    _ = [branchRow opcode name] := rfl

theorem standsAlone_callRow : StandsAlone callRow :=
  standsAlone_branchRow (by decide +kernel)

theorem standsAlone_jumpRow : StandsAlone jumpRow :=
  standsAlone_branchRow (by decide +kernel)

end OpcodeTable

/-! ## Operands -/

theorem OperandContext.yields_read (ctx : OperandContext) (form : OperandForm) :
    (ctx.read form).Yields fun ops => ∀ op ∈ ops, op.isAhead = form.isDistance := by
  cases form with
  | immediate encoded w signed =>
    cases signed with
    | false =>
      exact Reader.yields_bind fun v => Reader.yields_pure (by
        simp [EncodedOperand.isAhead, OperandForm.isDistance])
    | true =>
      exact Reader.yields_bind fun v => Reader.yields_pure (by
        simp [EncodedOperand.isAhead, OperandForm.isDistance])
  | segment | distance _ | absolute _ =>
    exact Reader.yields_bind fun v => Reader.yields_pure (by
      simp [EncodedOperand.isAhead, OperandForm.isDistance])
  | farPointer =>
    exact Reader.yields_bind fun offset => Reader.yields_bind fun selector =>
      Reader.yields_pure (by simp [EncodedOperand.isAhead, OperandForm.isDistance])
  | _ =>
    exact Reader.yields_pure (by
      simp [EncodedOperand.isAhead, OperandForm.isDistance])

theorem OperandContext.yields_readAll (ctx : OperandContext) {branch : Bool}
    {forms : List OperandForm} (h : ∀ form ∈ forms, form.isDistance = branch) :
    (ctx.readAll forms).Yields fun ops => ∀ op ∈ ops, op.isAhead = branch := by
  induction forms with
  | nil => exact Reader.yields_pure (by simp)
  | cons form forms ih =>
    rw [List.forall_mem_cons] at h
    refine (ctx.yields_read form).bind fun first hfirst => ?_
    refine (ih h.2).bind fun others hothers => Reader.yields_pure ?_
    intro op hop
    rcases List.mem_append.mp hop with hop | hop
    · rw [hfirst op hop, h.1]
    · exact hothers op hop

theorem OperandContext.readAll_distance (ctx : OperandContext) (count : Nat) :
    ctx.readAll [.distance count] =
      Reader.littleSigned count >>= fun distance => pure [.ahead distance] := by
  simp only [OperandContext.readAll, OperandContext.read, bind_assoc, pure_bind,
    List.append_nil]

namespace Encoding

/-! ## Opcodes -/

theorem yields_readRow (p : Prefixes) (modrm : ModRM) {row : OpcodeRow}
    (hrow : row ∈ OpcodeTable.rows) :
    (readRow p row.opcode modrm row).Yields fun e =>
      e.Settled ∧ e.opcode = row.bareEncoding.opcode := by
  rw [readRow]
  split
  · exact Reader.yields_fail
  · refine Reader.yields_bind fun name => ?_
    refine (OperandContext.yields_readAll _
      (OpcodeTable.isDistance_eq_isRelativeBranch row hrow)).bind fun ops hops => ?_
    exact Reader.yields_pure ⟨hops, rfl⟩

/-- What holds of the instructions of every row with an opcode holds of all with it. -/
theorem yields_readOpcode_of_rows {p : Prefixes} {extended : Bool} {opcode : UInt8}
    {P : Encoding → Prop} {Q : ModRM → Prop} (hread : ∀ b, (ModRM.read b).Yields Q)
    (habsent : Q ModRM.absent)
    (hrow : ∀ modrm row, Q modrm → row ∈ OpcodeTable.rows → row.opcode = opcode →
      row.extended = extended → (readRow p opcode modrm row).Yields P) :
    (readOpcode p extended opcode).Yields P := by
  have hcandidate : ∀ modrm row, Q modrm →
      row ∈ OpcodeTable.rows.filter (fun row =>
        row.opcode = opcode && row.extended = extended && p.meets row.demand) →
      (readRow p opcode modrm row).Yields P := by
    intro modrm row hmodrm hmem
    simp only [List.mem_filter, Bool.and_eq_true, decide_eq_true_eq] at hmem
    obtain ⟨hrows, ⟨hopcode, hextended⟩, -⟩ := hmem
    exact hrow modrm row hmodrm hrows hopcode hextended
  rw [readOpcode]
  split
  · refine Reader.yields_bind fun b => ?_
    refine (Reader.yields_ofOption (P := (· ∈ OpcodeTable.rows.filter _))
      fun row hrow => List.mem_of_find?_eq_some hrow).bind fun row hrow => ?_
    exact (hread b).bind fun modrm hmodrm => hcandidate modrm row hmodrm hrow
  · refine (Reader.yields_ofOption (P := (· ∈ OpcodeTable.rows.filter _))
      fun row hrow => List.mem_of_head? hrow).bind fun row hrow => ?_
    exact hcandidate _ row habsent hrow

theorem yields_readOpcode (p : Prefixes) (extended : Bool) (opcode : UInt8) :
    (readOpcode p extended opcode).Yields fun e =>
      e.Settled ∧ e.opcode = if extended then Prefixes.leadByte else opcode := by
  refine yields_readOpcode_of_rows (Q := fun _ => True) (fun b _ _ _ => trivial) trivial ?_
  rintro modrm row - hrows rfl rfl
  exact yields_readRow p modrm hrows

theorem yields_read : read.Yields Settled := by
  refine Reader.yields_bind fun ⟨p, first⟩ => ?_
  by_cases hlead : first = Prefixes.leadByte
  · simp only [if_pos hlead]
    refine Reader.yields_bind fun second => ?_
    exact fun bytes e h => (yields_readOpcode _ _ _ h).1
  · simp only [if_neg hlead]
    exact fun bytes e h => (yields_readOpcode _ _ _ h).1

/-! ## Calls -/

/-- Prefixes decide the name of a direct branch and whether there is one, nothing
else. -/
theorem readOpcode_branch {opcode : UInt8} {name : String}
    (h : OpcodeTable.StandsAlone (OpcodeTable.branchRow opcode name)) (p : Prefixes) :
    readOpcode p false opcode =
      if p.lock then .fail
      else
        Reader.littleSigned 4 >>= fun distance => pure
          { (OpcodeTable.branchRow opcode name).bareEncoding with
            mnemonic := nameOf p false .branch name
            operands := [.ahead distance] } := by
  have hfilter := h p
  have hplain : ¬ [OpcodeTable.branchRow opcode name].any (·.usesModRM) = true :=
    Bool.false_ne_true
  have hname : (if p.operandSize &&
      (OpcodeTable.branchRow opcode name).demand ≠ .present .operandSize
      then (OpcodeTable.branchRow opcode name).narrowMnemonic
      else some (OpcodeTable.branchRow opcode name).mnemonic) = some name := by
    split <;> rfl
  have hlocking : (OpcodeTable.branchRow opcode name).locking = .never := rfl
  have hoperands : (OpcodeTable.branchRow opcode name).operands = [.distance 4] := rfl
  have hopcode : (OpcodeTable.branchRow opcode name).opcode = opcode := rfl
  rw [hopcode] at hfilter
  simp only [readOpcode, hfilter, if_neg hplain]
  show readRow p opcode ModRM.absent (OpcodeTable.branchRow opcode name) = _
  simp only [readRow, hname, hlocking, hoperands, admitsLock, Bool.not_false,
    Bool.and_true, OperandContext.readAll_distance, bind_assoc, pure_bind]
  rfl

theorem readOpcode_call (p : Prefixes) :
    readOpcode p false callOpcode =
      if p.lock then .fail
      else
        Reader.littleSigned 4 >>= fun distance => pure
          { OpcodeTable.callRow.bareEncoding with
            mnemonic := nameOf p false .branch "call"
            operands := [.ahead distance] } :=
  readOpcode_branch OpcodeTable.standsAlone_callRow p

/-- A call ends in its distance, and with other bytes there it is a call as well. -/
theorem exists_distance_of_reads {bytes : List UInt8} {e : Encoding}
    (h : read.Reads bytes e) (hcall : e.opcode = callOpcode) :
    ∃ front distance, bytes = front ++ distance ∧ distance.length = 4 ∧
      ∀ distance' : List UInt8, distance'.length = 4 →
        ∃ d, read.Reads (front ++ distance') { e with operands := [.ahead d] } := by
  obtain ⟨front, back, ⟨p, first⟩, rfl, hprefixed, hback⟩ := Reader.reads_bind_iff.mp h
  by_cases hlead : first = Prefixes.leadByte
  · simp only [if_pos hlead] at hback
    obtain ⟨front', back', second, -, -, hrow⟩ := Reader.reads_bind_iff.mp hback
    have hopcode := (yields_readOpcode _ _ _ hrow).2
    rw [hcall] at hopcode
    exact absurd hopcode (by rw [if_pos rfl]; decide)
  · simp only [if_neg hlead] at hback
    have hopcode := (yields_readOpcode _ _ _ hback).2
    rw [hcall] at hopcode
    obtain rfl : callOpcode = first := hopcode
    rw [readOpcode_call] at hback
    by_cases hlock : p.lock = true
    · rw [if_pos hlock] at hback
      exact (Reader.yields_fail (P := fun _ => False) hback).elim
    · rw [if_neg hlock, Reader.reads_bind_iff] at hback
      obtain ⟨distance, nothing, d, rfl, hdistance, hpure⟩ := hback
      obtain ⟨rfl, rfl⟩ := Reader.reads_pure_iff.mp hpure
      refine ⟨front, distance, by rw [List.append_nil],
        Reader.length_of_reads_littleSigned hdistance, fun distance' hlength => ?_⟩
      obtain ⟨d', hd'⟩ := Reader.exists_reads_littleSigned distance'
      rw [hlength] at hd'
      refine ⟨d', hprefixed.bind ?_⟩
      simp only [if_neg hlead]
      rw [readOpcode_call, if_neg hlock]
      exact hd'.result _

/-! ## Jumps -/

/-- A direct jump without prefixes over the distance that four bytes make. -/
def jump (distance : List UInt8) : Encoding :=
  { OpcodeTable.jumpRow.bareEncoding with
    operands := [.ahead (Int.bmod (Reader.littleEndian distance) (Nat.pow 2 32))] }

theorem reads_jump {distance : List UInt8} (h : distance.length = 4) :
    read.Reads (jumpOpcode :: distance) (jump distance) := by
  have hprefixed : (prefixed maxLength).Reads [jumpOpcode] ({}, jumpOpcode) :=
    fun more => rfl
  have hlead : jumpOpcode ≠ Prefixes.leadByte := by decide
  have hdistance := Reader.reads_littleSigned distance
  rw [h] at hdistance
  refine hprefixed.bind ?_
  simp only [if_neg hlead, readOpcode_branch OpcodeTable.standsAlone_jumpRow, Bool.false_eq_true,
    if_false]
  exact hdistance.result _

end Encoding

end BinMatch.X86
