import BinMatch.Proofs.Log
import BinMatch.Proofs.Text.Line
import BinMatch.X86.Line

/-!
# Rendered code

Code that is rendered was decoded completely, and its text has one terminated line
for each instruction.  Only empty code has no instruction.
-/

namespace BinMatch.X86

variable [Decoder]

@[simp] theorem decodeAll_nil (address : Int) : decodeAll [] address = [] := by
  rw [decodeAll]
  rfl

theorem complete_eq_ok_iff {code : List UInt8} {address : Int}
    {insns : List Instruction} :
    (Disassembly.ofCode code address).complete = .ok insns ↔
      decodeAll code address = insns ∧
        code.length ≤ Disassembly.endOf address insns - address := by
  simp only [Disassembly.complete, Disassembly.ofCode]
  split
  · rename_i hfailure
    split at hfailure
    · simp at hfailure
    · rename_i hle
      simp only [Except.ok.injEq]
      constructor
      · rintro rfl
        exact ⟨rfl, Int.not_lt.mp hle⟩
      · exact And.left
  · rename_i hfailure
    split at hfailure
    · rename_i hlt
      simp only [reduceCtorEq, false_iff, not_and, Int.not_le]
      rintro rfl
      exact hlt
    · simp at hfailure

@[simp] theorem complete_ofCode_nil (address : Int) :
    (Disassembly.ofCode [] address).complete = .ok [] := by
  rw [complete_eq_ok_iff]
  simp [Disassembly.endOf]

/-- Code without instructions is decoded completely only if there is no code. -/
theorem eq_nil_of_complete {code : List UInt8} {address : Int}
    (h : (Disassembly.ofCode code address).complete = .ok []) : code = [] := by
  have hlength := (complete_eq_ok_iff.mp h).2
  simp only [Disassembly.endOf, List.getLast?_nil, Int.sub_self] at hlength
  exact List.eq_nil_of_length_eq_zero (by omega)

theorem render_eq_ok_iff {opts : LineOptions} {names : AddressMap}
    {code : List UInt8} {address : Int} {text : String} :
    render opts names code address = .ok text ↔
      ∃ insns, (Disassembly.ofCode code address).complete = .ok insns ∧
        text = Text.Line.terminated (insns.map (·.line opts names)) := by
  simp only [render, renderLines, except_bind_eq_ok_iff, pure, Except.pure,
    Except.ok.injEq]
  constructor
  · rintro ⟨lines, ⟨insns, hdecoded, rfl⟩, rfl⟩
    exact ⟨insns, hdecoded, rfl⟩
  · rintro ⟨insns, hdecoded, rfl⟩
    exact ⟨_, ⟨insns, hdecoded, rfl⟩, rfl⟩

/-- Rendering fails only where decoding stops short. -/
theorem render_eq_error_iff {opts : LineOptions} {names : AddressMap}
    {code : List UInt8} {address : Int} {e : Error} :
    render opts names code address = .error e ↔
      (Disassembly.ofCode code address).complete = .error e := by
  simp [render, renderLines, except_bind_eq_error_iff, pure, Except.pure]

theorem split_rendered_eq_nil_iff {opts : LineOptions} {names : AddressMap}
    {code : List UInt8} {address : Int} {text : String}
    (h : render opts names code address = .ok text) :
    Text.Line.split text = [] ↔ code = [] := by
  obtain ⟨insns, hdecoded, rfl⟩ := render_eq_ok_iff.mp h
  rw [Text.Line.split_eq_nil_iff, Text.Line.terminated_eq_empty_iff,
    List.map_eq_nil_iff]
  constructor
  · rintro rfl
    exact eq_nil_of_complete hdecoded
  · rintro rfl
    rw [complete_ofCode_nil] at hdecoded
    exact (Except.ok.inj hdecoded).symm

end BinMatch.X86
