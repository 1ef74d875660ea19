import BinMatch.Proofs.Comparison.Match
import BinMatch.Proofs.Thunk
import BinMatch.Proofs.X86.Cut

/-!
# Truncated comparisons

Truncation takes as many bytes of the rebuilt function as the reference declares.  Where
these are no more than the symbol says, the listing is the untruncated one cut off behind
the instructions that lie in them, shown by the same names; the reference side is the
same in both.
-/

namespace BinMatch

open X86

namespace RebuiltSide

/-- The bytes of a function as far as its symbol says. -/
def bytesOf (side : RebuiltSide) (s : Symbol) : List UInt8 :=
  side.image.range s.offset s.size

/-- The instructions of a function as far as its symbol says. -/
def instructionsOf [Decoder] (side : RebuiltSide) (s : Symbol) : List Instruction :=
  decodeAll (side.bytesOf s) (side.virtualAddress s)

end RebuiltSide

/-! ## Comparisons of a function with a declared size -/

section Known

variable [Decoder] {reference : ReferenceSide} {rebuilt : RebuiltSide} {name : String}
  {d : Definition} {s : Symbol} {size : Int}

/-- A function that both sides know is compared by its declared size on the reference
side; truncation takes that size on the other side too. -/
theorem result_compare_known (opts : ComparisonOptions)
    (hd : reference.functions.get? name = some d) (hs : rebuilt.symbols.get? name = some s)
    (hsize : d.size = some size) :
    (compare opts reference rebuilt name).result =
      (do
        let referenceCode ← reference.image.slice name (reference.fileOffset d) size
        let rebuiltCode ← rebuilt.image.slice name s.offset
          (if opts.truncateToReference then size else s.size)
        let oldText ← referenceText opts reference (some d) referenceCode
        let newText ← rebuiltText opts rebuilt (some s) rebuiltCode
        .ok (Diff.compareTexts referenceListingName rebuiltListingName oldText
          newText)) := by
  have hplan : planExtraction opts.truncateToReference name (some d) (some s) =
      .ok ⟨some size, some (if opts.truncateToReference then size else s.size)⟩ := by
    cases opts.truncateToReference <;> simp [planExtraction, hsize] <;> rfl
  rw [result_compare, hd, hs, if_neg (by simp), hplan]
  rfl

/-- The steps of such a comparison that succeeds. -/
theorem result_compare_known_eq_ok_iff {opts : ComparisonOptions} {diff : Diff.TextDiff}
    (hd : reference.functions.get? name = some d) (hs : rebuilt.symbols.get? name = some s)
    (hsize : d.size = some size) :
    (compare opts reference rebuilt name).result = .ok diff ↔
      ∃ referenceCode rebuiltCode oldText newText,
        reference.image.slice name (reference.fileOffset d) size = .ok referenceCode ∧
        rebuilt.image.slice name s.offset
          (if opts.truncateToReference then size else s.size) = .ok rebuiltCode ∧
        referenceText opts reference (some d) referenceCode = .ok oldText ∧
        rebuiltText opts rebuilt (some s) rebuiltCode = .ok newText ∧
        Diff.compareTexts referenceListingName rebuiltListingName oldText newText =
          diff := by
  simp only [result_compare_known opts hd hs hsize, except_bind_eq_ok_iff, Except.ok.injEq]
  constructor
  · rintro ⟨c₁, h₁, c₂, h₂, t₁, h₃, t₂, h₄, h₅⟩
    exact ⟨c₁, c₂, t₁, t₂, h₁, h₂, h₃, h₄, h₅⟩
  · rintro ⟨c₁, c₂, t₁, t₂, h₁, h₂, h₃, h₄, h₅⟩
    exact ⟨c₁, h₁, c₂, h₂, t₁, h₃, t₂, h₄, h₅⟩

end Known

/-! ## Listings of the first bytes -/

section Names

variable [Decoder] {opts : ComparisonOptions} {image : Image} {virtualBase : Int}
  {names : AddressMap}

/-- The first bytes call no thunk that all bytes do not call. -/
theorem get?_namesShown_take {code : List UInt8} {count : Nat} {address target : Int}
    {insn : Instruction} (hinsn : insn ∈ within count (decodeAll code address))
    (htarget : callTarget? insn = some target) :
    (namesShown opts image virtualBase names (code.take count) address).get? target =
      (namesShown opts image virtualBase names code address).get? target := by
  have hkept : ∃ insn ∈ within count (decodeAll code address),
      callTarget? insn = some target := ⟨insn, hinsn, htarget⟩
  have hwhole : ∃ insn ∈ decodeAll code address, callTarget? insn = some target :=
    ⟨insn, (within_isPrefix count _).subset hinsn, htarget⟩
  rw [namesShown_eq, namesShown_eq, decodeAll_take]
  cases opts.resolveThunks with
  | false => rfl
  | true => simp only [if_true, get?_withThunks, if_pos hkept, if_pos hwhole]

theorem map_line_take (code : List UInt8) (count : Nat) (address : Int) :
    (within count (decodeAll code address)).map (·.line opts.lines
        (namesShown opts image virtualBase names (code.take count) address)) =
      (within count (decodeAll code address)).map (·.line opts.lines
        (namesShown opts image virtualBase names code address)) := by
  refine List.map_congr_left fun insn hinsn => ?_
  have hcalls := callsOnce_of_mem_decodeAll insn ((within_isPrefix count _).subset hinsn)
  exact hcalls.line_eq fun target htarget => get?_namesShown_take hinsn htarget

/-- The first bytes are shown by the first lines, unless they end inside an instruction. -/
theorem render_take {code : List UInt8} {count : Nat} (h : count ≤ code.length)
    (address : Int) :
    let kept := within count (decodeAll code address)
    let stop := Disassembly.endOf address kept
    render opts.lines (namesShown opts image virtualBase names (code.take count) address)
        (code.take count) address =
      if stop - address < count then .error (.undecodable stop)
      else .ok (Text.Line.terminated (kept.map (·.line opts.lines
        (namesShown opts image virtualBase names code address)))) := by
  intro kept stop
  have hcomplete : (Disassembly.ofCode (code.take count) address).complete =
      if stop - address < count then .error (.undecodable stop) else .ok kept :=
    complete_take h address
  by_cases hshort : stop - address < count
  · rw [if_pos hshort] at hcomplete ⊢
    exact render_eq_error_iff.mpr hcomplete
  · rw [if_neg hshort] at hcomplete ⊢
    exact render_eq_ok_iff.mpr ⟨kept, hcomplete, by rw [map_line_take]⟩

end Names

/-! ## Truncation -/

section Truncation

variable [Decoder] {opts : ComparisonOptions} {reference : ReferenceSide}
  {rebuilt : RebuiltSide} {name : String} {d : Definition} {s : Symbol} {size : Int}
  {whole : Diff.TextDiff}

/-- Where a truncated comparison ends whose declared size the symbol's covers. -/
theorem result_compare_truncated (hd : reference.functions.get? name = some d)
    (hs : rebuilt.symbols.get? name = some s) (hsize : d.size = some size)
    (hnonneg : 0 ≤ size) (hle : size ≤ s.size)
    (hwhole : (compare { opts with truncateToReference := false } reference rebuilt
      name).result = .ok whole) :
    let names := namesShown opts rebuilt.image rebuilt.segmentOffset rebuilt.addressMap
      (rebuilt.bytesOf s) (rebuilt.virtualAddress s)
    let kept := within size.toNat (rebuilt.instructionsOf s)
    let stop := Disassembly.endOf (rebuilt.virtualAddress s) kept
    whole.newText = Text.Line.terminated
        ((rebuilt.instructionsOf s).map (·.line opts.lines names)) ∧
      (compare { opts with truncateToReference := true } reference rebuilt name).result =
        if stop - rebuilt.virtualAddress s < size then .error (.undecodable stop)
        else .ok (Diff.compareTexts referenceListingName rebuiltListingName whole.oldText
          (Text.Line.terminated (kept.map (·.line opts.lines names)))) := by
  intro names kept stop
  obtain ⟨referenceCode, rebuiltCode, oldText, newText, hreference, hrebuilt, hold, hnew,
    rfl⟩ := (result_compare_known_eq_ok_iff hd hs hsize).mp hwhole
  obtain ⟨hcovers, rfl⟩ := slice_eq_ok_iff.mp hrebuilt
  have hlength : size.toNat ≤ (rebuilt.bytesOf s).length := by
    have := length_range hcovers
    simp only [RebuiltSide.bytesOf, Bool.false_eq_true, if_false] at this ⊢
    omega
  have hcut : rebuilt.image.slice name s.offset size =
      .ok ((rebuilt.bytesOf s).take size.toNat) :=
    slice_eq_ok_iff.mpr ⟨covers_of_le hcovers hnonneg hle, (range_take hle).symm⟩
  constructor
  · obtain ⟨insns, hcomplete, htext⟩ := render_eq_ok_iff.mp hnew
    obtain ⟨rfl, -⟩ := complete_eq_ok_iff.mp hcomplete
    exact htext
  · have hold' : referenceText { opts with truncateToReference := true } reference (some d)
        referenceCode = .ok oldText := hold
    have hnew' : rebuiltText { opts with truncateToReference := true } rebuilt (some s)
          ((rebuilt.bytesOf s).take size.toNat) =
        if stop - rebuilt.virtualAddress s < size.toNat then .error (.undecodable stop)
        else .ok (Text.Line.terminated (kept.map (·.line opts.lines names))) :=
      render_take hlength (rebuilt.virtualAddress s)
    rw [Int.toNat_of_nonneg hnonneg] at hnew'
    rw [result_compare_known _ hd hs hsize, hreference, if_pos rfl, hcut]
    simp only [bind, Except.bind, hold', hnew']
    by_cases hshort : stop - rebuilt.virtualAddress s < size
    · rw [if_pos hshort, if_pos hshort]
    · rw [if_neg hshort, if_neg hshort]
      rfl

/-- A truncated comparison has the listing of the untruncated one, cut off behind the
instructions that lie in the declared size, or it fails at the end of these.  Where the
instructions are reported behind each other it fails exactly if the declared size ends
inside an instruction. -/
theorem truncation_cuts_listing (hd : reference.functions.get? name = some d)
    (hs : rebuilt.symbols.get? name = some s) (hsize : d.size = some size)
    (hnonneg : 0 ≤ size) (hle : size ≤ s.size)
    (hwhole : (compare { opts with truncateToReference := false } reference rebuilt
      name).result = .ok whole) :
    let truncated :=
      (compare { opts with truncateToReference := true } reference rebuilt name).result
    let insns := rebuilt.instructionsOf s
    let kept := within size.toNat insns
    let stop := Disassembly.endOf (rebuilt.virtualAddress s) kept
    let lines := insns.map (·.line opts.lines (namesShown opts rebuilt.image
      rebuilt.segmentOffset rebuilt.addressMap (rebuilt.bytesOf s)
      (rebuilt.virtualAddress s)))
    whole.newText = Text.Line.terminated lines ∧
      (∀ t, truncated = .ok t → t.oldText = whole.oldText ∧
        t.newText = Text.Line.terminated (lines.take kept.length)) ∧
      ((∃ t, truncated = .ok t) ∨ truncated = .error (.undecodable stop)) ∧
      ((∃ t, truncated = .ok t) ↔ size ≤ stop - rebuilt.virtualAddress s) ∧
      (Consecutive (rebuilt.virtualAddress s) insns →
        ((∃ t, truncated = .ok t) ↔ Boundary insns size.toNat)) := by
  intro truncated insns kept stop lines
  obtain ⟨hlines, hresult⟩ := result_compare_truncated hd hs hsize hnonneg hle hwhole
  have htake : kept.map (·.line opts.lines (namesShown opts rebuilt.image
      rebuilt.segmentOffset rebuilt.addressMap (rebuilt.bytesOf s)
      (rebuilt.virtualAddress s))) = lines.take kept.length := by
    rw [← List.map_take, ← List.prefix_iff_eq_take.mp (within_isPrefix _ _)]
  rw [htake] at hresult
  have hsucceeds : (∃ t, truncated = .ok t) ↔ size ≤ stop - rebuilt.virtualAddress s := by
    rw [← Int.not_lt]
    by_cases hshort : stop - rebuilt.virtualAddress s < size
    · simp [truncated, hresult, hshort, stop, kept, insns]
    · simp [truncated, hresult, hshort, stop, kept, insns]
  refine ⟨hlines, fun t ht => ?_, ?_, hsucceeds, fun hplaced => ?_⟩
  · have hlong : ¬ stop - rebuilt.virtualAddress s < size :=
      Int.not_lt.mpr (hsucceeds.mp ⟨t, ht⟩)
    obtain rfl := Except.ok.inj (ht.symm.trans (hresult.trans (if_neg hlong)))
    exact ⟨rfl, rfl⟩
  · by_cases hshort : stop - rebuilt.virtualAddress s < size
    · exact .inr (hresult.trans (if_pos hshort))
    · exact .inl ⟨_, hresult.trans (if_neg hshort)⟩
  · have hcut := endOf_within_lt_iff hplaced size.toNat
    rw [Int.toNat_of_nonneg hnonneg] at hcut
    rw [hsucceeds, ← Int.not_lt]
    exact (not_congr hcut).trans not_not

end Truncation

/-- A declared size of one byte cuts a return off, and one of two bytes cuts it in two. -/
theorem truncation_around_return :
    let reference (size : Int) : ReferenceSide :=
      { image := ⟨[0x90, 0x90]⟩
        functions := Catalog.ofList [("f", ⟨"f", 0, some size⟩)]
        addressOffset := 0 }
    let rebuilt : RebuiltSide :=
      { image := ⟨[0x90, 0xC2, 0x08, 0x00]⟩
        symbols := Catalog.ofList [("f", ⟨"f", "f.c", 0, 4⟩)]
        segmentOffset := defaultSegmentOffset }
    let outcome (size : Int) :=
      (compare { truncateToReference := true } (reference size) rebuilt "f").result
    (∃ t, outcome 1 = .ok t ∧ t.newText = "nop\n") ∧ ¬ ∃ t, outcome 2 = .ok t := by
  intro reference rebuilt outcome
  let s : Symbol := ⟨"f", "f.c", 0, 4⟩
  have hs : rebuilt.symbols.get? "f" = some s := rfl
  have hplaced : Consecutive (rebuilt.virtualAddress s) (rebuilt.instructionsOf s) :=
    consecutive_decodeAll (by decide) (by decide)
  have hchecked :
      (compare {} (reference 1) rebuilt "f").result.isOk = true ∧
        (compare {} (reference 2) rebuilt "f").result.isOk = true ∧
        byteCount (within 1 (rebuilt.instructionsOf s)) = 1 ∧
        byteCount (within 2 (rebuilt.instructionsOf s)) ≠ 2 ∧
        (within 1 (rebuilt.instructionsOf s)).length = 1 ∧
        (rebuilt.instructionsOf s).map (·.line {} rebuilt.addressMap) = ["nop", "ret 0x8"] := by
    decide +kernel +zetaReduce
  obtain ⟨hwhole₁, hwhole₂, hboundary, hinside, hkept, hlines⟩ := hchecked
  obtain ⟨whole₁, hwhole₁⟩ := isOk_iff.mp hwhole₁
  obtain ⟨whole₂, hwhole₂⟩ := isOk_iff.mp hwhole₂
  constructor
  · obtain ⟨-, htexts, -, -, hcut⟩ := @truncation_cuts_listing tableDecoder {}
      (reference 1) rebuilt "f" _ s 1 _ rfl hs rfl (by decide) (by decide) hwhole₁
    obtain ⟨t, ht⟩ := (hcut hplaced).mpr (boundary_iff.mpr hboundary)
    refine ⟨t, ht, (htexts t ht).2.trans ?_⟩
    show Text.Line.terminated (((rebuilt.instructionsOf s).map
      (·.line {} rebuilt.addressMap)).take
        (within 1 (rebuilt.instructionsOf s)).length) = "nop\n"
    rw [hlines, hkept]
    rfl
  · obtain ⟨-, -, -, -, hcut⟩ := @truncation_cuts_listing tableDecoder {}
      (reference 2) rebuilt "f" _ s 2 _ rfl hs rfl (by decide) (by decide) hwhole₂
    exact fun hsucceeds => hinside (boundary_iff.mp ((hcut hplaced).mp hsucceeds))

/-- At a negative address the cut inside the return goes unnoticed: the address behind
the instruction in front of it went round the address space. -/
theorem cut_return_unnoticed :
    let reference : ReferenceSide :=
      { image := ⟨[0x90, 0x90]⟩
        functions := Catalog.ofList [("f", ⟨"f", 0, some 2⟩)]
        addressOffset := 0 }
    let s : Symbol := ⟨"f", "f.c", 0, 4⟩
    let rebuilt : RebuiltSide :=
      { image := ⟨[0x90, 0xC2, 0x08, 0x00]⟩
        symbols := Catalog.ofList [("f", s)]
        segmentOffset := -16 }
    (∃ whole, (compare {} reference rebuilt "f").result = .ok whole) ∧
      ¬ Boundary (rebuilt.instructionsOf s) 2 ∧
      ∃ t, (compare { truncateToReference := true } reference rebuilt "f").result = .ok t := by
  intro reference s rebuilt
  have hchecked : (compare {} reference rebuilt "f").result.isOk = true ∧
      byteCount (within 2 (rebuilt.instructionsOf s)) ≠ 2 ∧
      (compare { truncateToReference := true } reference rebuilt "f").result.isOk = true := by
    decide +kernel +zetaReduce
  exact ⟨isOk_iff.mp hchecked.1, mt boundary_iff.mp hchecked.2.1, isOk_iff.mp hchecked.2.2⟩

end BinMatch
