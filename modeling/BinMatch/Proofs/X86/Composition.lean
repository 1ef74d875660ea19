import BinMatch.Proofs.X86.Disassembly
import BinMatch.X86.TableDecoder

/-!
# Code behind code

Decoded instructions take at least one byte each and no more bytes than there are, and
decoding fails exactly if they leave some over.  Code that was decoded to its end is decoded
in the same way whatever stands behind it, so the text of two codes one behind the other is
the text of the first and then that of the second, and what fails is the second.
-/

namespace BinMatch.X86

theorem endOf_append {address : Int} {insns : List Instruction} (h : Consecutive address insns)
    (more : List Instruction) :
    Disassembly.endOf address (insns ++ more) =
      Disassembly.endOf (address + byteCount insns) more := by
  simp only [Disassembly.endOf, List.getLast?_append]
  cases more.getLast? with
  | none => exact endOf_eq h
  | some last => rfl

section Stream

variable [Decoder]

/-! ## Bytes taken -/

theorem decodedLength_append {bytes : List UInt8} {e : Encoding} (h : Encodes bytes e)
    (rest : List UInt8) :
    decodedLength (bytes ++ rest) = bytes.length + decodedLength rest := by
  rw [decodedLength, decodeAll_append h, byteCount, byteCount_decodeAll]
  rfl

theorem decodedLength_of_stuck {code : List UInt8}
    (h : ∀ address, decodeAll code address = []) : decodedLength code = 0 := by
  rw [decodedLength, h]
  rfl

theorem decodedLength_le (code : List UInt8) : decodedLength code ≤ code.length := by
  induction code, (0 : Int) using stream_induction with
  | stuck code _ hstuck =>
    rw [decodedLength_of_stuck hstuck]
    exact Nat.zero_le _
  | step bytes rest e _ he ih =>
    rw [decodedLength_append he, List.length_append]
    omega

theorem length_pos_of_mem_decodeAll {code : List UInt8} {base : Int} :
    ∀ insn ∈ decodeAll code base, 0 < insn.length := by
  induction code, base using stream_induction with
  | stuck code base hstuck => simp [hstuck]
  | step bytes rest e base he ih =>
    rw [decodeAll_append he, List.forall_mem_cons]
    exact ⟨he.length_pos, ih⟩

/-! ## Places of the instructions -/

/-- With the first one at `address` and each behind the one before it, no instruction
starts outside of the address space. -/
def Addressable : Int → List Instruction → Prop
  | _, [] => True
  | address, insn :: insns =>
    (0 ≤ address ∧ address < addressCount) ∧ Addressable (address + insn.length) insns

/-- The instructions are reported one behind the other as far as there are addresses. -/
theorem consecutive_iff_addressable {code : List UInt8} {base : Int} :
    Consecutive base (decodeAll code base) ↔ Addressable base (decodeAll code base) := by
  induction code, base using stream_induction with
  | stuck code base hstuck =>
    rw [hstuck]
    exact Iff.rfl
  | step bytes rest e base he ih =>
    have hreported : base % (addressCount : Int) = base ↔
        0 ≤ base ∧ base < (addressCount : Int) := by
      constructor
      · intro h
        rw [← h]
        exact ⟨Int.emod_nonneg _ (by decide), Int.emod_lt_of_pos _ (by decide)⟩
      · rintro ⟨hstart, hstop⟩
        exact Int.emod_eq_of_lt hstart hstop
    rw [decodeAll_append he]
    exact and_congr hreported ih

/-! ## Code that is followed by more code -/

theorem decodeAll_append_of_decoded {code : List UInt8} (h : decodedLength code = code.length)
    (more : List UInt8) (base : Int) :
    decodeAll (code ++ more) base =
      decodeAll code base ++ decodeAll more (base + code.length) := by
  induction code, base using stream_induction with
  | stuck code base hstuck =>
    rw [decodedLength_of_stuck hstuck] at h
    obtain rfl := List.eq_nil_of_length_eq_zero h.symm
    simp
  | step bytes rest e base he ih =>
    rw [decodedLength_append he, List.length_append] at h
    rw [List.append_assoc, decodeAll_append he, decodeAll_append he, ih (by omega),
      List.length_append, Int.natCast_add, Int.add_assoc, List.cons_append]

section Behind

variable {code : List UInt8} {base : Int}

/-- What is decoded of two codes is what is decoded of each, and the second one decides
whether this is all. -/
theorem complete_append (hplaced : Consecutive base (decodeAll code base))
    (hdecoded : decodedLength code = code.length) (more : List UInt8) :
    (Disassembly.ofCode (code ++ more) base).complete =
      (Disassembly.ofCode more (base + code.length)).complete.map
        (decodeAll code base ++ ·) := by
  have hinsns := decodeAll_append_of_decoded hdecoded more base
  have hend := endOf_append hplaced (decodeAll more (base + code.length))
  rw [byteCount_decodeAll, hdecoded] at hend
  simp only [Disassembly.complete, Disassembly.ofCode, hinsns, hend, List.length_append]
  by_cases hshort : Disassembly.endOf (base + code.length)
      (decodeAll more (base + code.length)) - (base + code.length) < more.length
  · have hshort' : Disassembly.endOf (base + code.length)
        (decodeAll more (base + code.length)) - base < (code.length + more.length : Nat) := by
      omega
    simp only [if_pos hshort, if_pos hshort']
    rfl
  · have hshort' : ¬ Disassembly.endOf (base + code.length)
        (decodeAll more (base + code.length)) - base < (code.length + more.length : Nat) := by
      omega
    simp only [if_neg hshort, if_neg hshort']
    rfl

theorem render_eq_map (opts : LineOptions) (names : AddressMap) (code : List UInt8)
    (base : Int) :
    render opts names code base = (Disassembly.ofCode code base).complete.map fun insns =>
      Text.Line.terminated (insns.map (·.line opts names)) := by
  simp only [render, renderLines]
  cases (Disassembly.ofCode code base).complete <;> rfl

theorem render_append (hplaced : Consecutive base (decodeAll code base))
    {opts : LineOptions} {names : AddressMap} {text : String}
    (htext : render opts names code base = .ok text) (more : List UInt8) :
    render opts names (code ++ more) base =
      (render opts names more (base + code.length)).map (text ++ ·) := by
  obtain ⟨insns, hcomplete, rfl⟩ := render_eq_ok_iff.mp htext
  obtain ⟨rfl, hend⟩ := complete_eq_ok_iff.mp hcomplete
  have hdecoded : decodedLength code = code.length := by
    have hle := decodedLength_le code
    rw [endOf_eq hplaced, byteCount_decodeAll] at hend
    omega
  rw [render_eq_map, render_eq_map, complete_append hplaced hdecoded]
  cases (Disassembly.ofCode more (base + code.length)).complete with
  | error e => rfl
  | ok others =>
    simp only [Except.map, List.map_append, Text.Line.terminated_append]

end Behind

/-- The instructions are no empty ones, stand one behind the other and lie inside the code.
Decoding fails exactly if they leave bytes over, at the first of these, and a text that was
rendered is the front of the text of the code together with any code behind it. -/
theorem decoding_tiles_and_composes (code : List UInt8) (base : Int) :
    (∀ insn ∈ decodeAll code base, 0 < insn.length) ∧
      byteCount (decodeAll code base) ≤ code.length ∧
      (Consecutive base (decodeAll code base) ↔ Addressable base (decodeAll code base)) ∧
      (Consecutive base (decodeAll code base) →
        (∀ e, (Disassembly.ofCode code base).complete = .error e ↔
          byteCount (decodeAll code base) < code.length ∧
            e = .undecodable (base + byteCount (decodeAll code base))) ∧
        ∀ opts names text, render opts names code base = .ok text → ∀ more : List UInt8,
          render opts names (code ++ more) base =
            (render opts names more (base + code.length)).map (text ++ ·)) := by
  rw [byteCount_decodeAll]
  refine ⟨length_pos_of_mem_decodeAll, decodedLength_le code, consecutive_iff_addressable,
    fun hplaced => ⟨fun e => ?_, fun opts names text htext => render_append hplaced htext⟩⟩
  rw [complete_of_consecutive hplaced]
  by_cases hshort : decodedLength code < code.length
  · rw [if_pos hshort, Except.error.injEq, and_iff_right hshort, eq_comm]
  · rw [if_neg hshort]
    exact ⟨nofun, fun h => absurd h.1 hshort⟩

end Stream

/-- A call, and behind it a return and a byte that is no instruction. -/
theorem composed_code_fails_behind_call :
    let call : List UInt8 := [0xE8, 0x00, 0x00, 0x00, 0x00]
    Consecutive 0x401000 (decodeAll call 0x401000) ∧
      render {} Catalog.empty call 0x401000 = .ok "call 0x401005\n" ∧
      render {} Catalog.empty (call ++ [0xC3]) 0x401000 = .ok "call 0x401005\nret\n" ∧
      render {} Catalog.empty (call ++ [0xC3, 0xFF]) 0x401000 =
        .error (.undecodable 0x401006) := by
  intro call
  have hplaced : Consecutive 0x401000 (decodeAll call 0x401000) :=
    consecutive_decodeAll (by decide) (by decide)
  have hbehind : Consecutive 0x401005 (decodeAll [0xC3, 0xFF] 0x401005) :=
    consecutive_decodeAll (by decide) (by decide)
  have hcall : render {} Catalog.empty call 0x401000 = .ok "call 0x401005\n" :=
    render_eq_ok_iff.mpr ⟨_, complete_eq_ok_iff.mpr ⟨rfl, by decide +kernel +zetaReduce⟩,
      by decide +kernel +zetaReduce⟩
  have hreturn : render {} Catalog.empty [0xC3] 0x401005 = .ok "ret\n" :=
    render_eq_ok_iff.mpr ⟨_, complete_eq_ok_iff.mpr ⟨rfl, by decide +kernel⟩,
      by decide +kernel⟩
  have hstuck : render {} Catalog.empty [0xC3, 0xFF] 0x401005 =
      .error (.undecodable 0x401006) :=
    render_eq_error_iff.mpr
      ((((decoding_tiles_and_composes [0xC3, 0xFF] 0x401005).2.2.2 hbehind).1 _).mpr
        (by decide +kernel))
  have happend := ((decoding_tiles_and_composes call 0x401000).2.2.2 hplaced).2 _ _ _ hcall
  refine ⟨hplaced, hcall, (happend [0xC3]).trans ?_, (happend [0xC3, 0xFF]).trans ?_⟩
  · show (render {} Catalog.empty [0xC3] 0x401005).map _ = _
    rw [hreturn]
    rfl
  · show (render {} Catalog.empty [0xC3, 0xFF] 0x401005).map _ = _
    rw [hstuck]
    rfl

end BinMatch.X86
