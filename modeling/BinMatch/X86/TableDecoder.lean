import BinMatch.Proofs.X86.Encoding

/-!
# The decoder of the opcode table

An instruction is at most fifteen bytes long, so no more of the code is read.  The
decoder knows the encodings of the table and no others; `OpcodeTable` says what that
leaves out.
-/

namespace BinMatch.X86

namespace OpcodeTable

def first (code : List UInt8) : Option (Encoding × Nat) :=
  let window := code.take maxLength
  (Encoding.read.run window).map fun (e, rest) => (e, window.length - rest.length)

theorem first_eq_some_iff {code : List UInt8} {e : Encoding} {n : Nat} :
    first code = some (e, n) ↔
      ∃ bytes rest, code = bytes ++ rest ∧ bytes.length = n ∧
        bytes.length ≤ maxLength ∧ Encoding.read.Reads bytes e := by
  simp only [first, Option.map_eq_some_iff, Prod.exists, Prod.mk.injEq]
  constructor
  · rintro ⟨e', left, hrun, rfl, rfl⟩
    obtain ⟨bytes, hwindow, hreads⟩ := Reader.exists_reads_of_run hrun
    have hlength : bytes.length ≤ maxLength := by
      have h := congrArg List.length hwindow
      simp only [List.length_take, List.length_append] at h
      omega
    refine ⟨bytes, left ++ code.drop maxLength, ?_, ?_, hlength, hreads⟩
    · rw [← List.append_assoc, ← hwindow, List.take_append_drop]
    · rw [hwindow, List.length_append, Nat.add_sub_cancel]
  · rintro ⟨bytes, rest, rfl, rfl, hlength, hreads⟩
    have hwindow : (bytes ++ rest).take maxLength =
        bytes ++ rest.take (maxLength - bytes.length) := by
      rw [List.take_append, List.take_of_length_le hlength]
    refine ⟨e, rest.take (maxLength - bytes.length), ?_, rfl, ?_⟩
    · rw [hwindow, hreads]
    · rw [hwindow, List.length_append, Nat.add_sub_cancel]

theorem first_append {bytes : List UInt8} {e : Encoding} (hlength : bytes.length ≤ maxLength)
    (hreads : Encoding.read.Reads bytes e) (more : List UInt8) :
    first (bytes ++ more) = some (e, bytes.length) :=
  first_eq_some_iff.mpr ⟨bytes, more, rfl, rfl, hlength, hreads⟩

theorem bounds_of_first {code : List UInt8} {e : Encoding} {n : Nat}
    (h : first code = some (e, n)) : 0 < n ∧ n ≤ code.length := by
  obtain ⟨bytes, rest, rfl, rfl, -, hreads⟩ := first_eq_some_iff.mp h
  constructor
  · cases bytes with
    | nil => exact absurd (hreads []) nofun
    | cons b bytes => exact Nat.succ_pos _
  · rw [List.length_append]
    omega

/-- Code that is one instruction as a whole. -/
theorem first_eq_length_iff {bytes : List UInt8} {e : Encoding} :
    first bytes = some (e, bytes.length) ↔
      bytes.length ≤ maxLength ∧ Encoding.read.Reads bytes e := by
  constructor
  · intro h
    obtain ⟨front, rest, hcode, hwhole, hlength, hreads⟩ := first_eq_some_iff.mp h
    have hrest : rest = [] := by
      have htotal := congrArg List.length hcode
      rw [List.length_append] at htotal
      exact List.eq_nil_of_length_eq_zero (by omega)
    rw [hcode, hrest, List.append_nil]
    exact ⟨hlength, hreads⟩
  · rintro ⟨hlength, hreads⟩
    have hfirst := first_append hlength hreads []
    rwa [List.append_nil] at hfirst

end OpcodeTable

instance tableDecoder : Decoder where
  first := OpcodeTable.first
  bounds := OpcodeTable.bounds_of_first
  own h more := by
    obtain ⟨bytes, rest, rfl, rfl, hlength, hreads⟩ := OpcodeTable.first_eq_some_iff.mp h
    rw [List.take_left]
    exact OpcodeTable.first_append hlength hreads more
  settled h := by
    obtain ⟨bytes, rest, -, -, -, hreads⟩ := OpcodeTable.first_eq_some_iff.mp h
    exact Encoding.yields_read hreads
  call h hcall := by
    obtain ⟨hlength, hreads⟩ := OpcodeTable.first_eq_length_iff.mp h
    obtain ⟨front, distance, rfl, hdistance, hany⟩ :=
      Encoding.exists_distance_of_reads hreads hcall
    refine ⟨front, distance, rfl, hdistance, ?_⟩
    intro distance' hdistance'
    obtain ⟨d, hd⟩ := hany distance' hdistance'
    have hsame : (front ++ distance').length = (front ++ distance).length := by
      rw [List.length_append, List.length_append, hdistance, hdistance']
    rw [← hsame] at hlength ⊢
    exact ⟨d, OpcodeTable.first_eq_length_iff.mpr ⟨hlength, hd⟩⟩

/-- The bytes of one instruction are those that the table reads. -/
theorem encodes_iff_reads {bytes : List UInt8} {e : Encoding} :
    Encodes bytes e ↔ bytes.length ≤ maxLength ∧ Encoding.read.Reads bytes e :=
  OpcodeTable.first_eq_length_iff

end BinMatch.X86
