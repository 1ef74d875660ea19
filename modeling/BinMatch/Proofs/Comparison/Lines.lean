import BinMatch.Proofs.AddressMap
import BinMatch.Proofs.Thunk
import BinMatch.Proofs.X86.OneLine

/-!
# A line for each instruction

A comparison reads its listings back line by line.  It finds the lines of the
instructions exactly if no call is shown by a label with a line break in it, which can
only come from the name of a function.
-/

namespace BinMatch

open X86
open Text.Line (Unbroken split split_terminated_iff)

/-! ## Labels -/

theorem unbroken_baseName {name : String} (h : Unbroken name) :
    Unbroken (Symbol.baseName name) := by
  unfold Symbol.baseName
  dsimp only
  split
  · exact h
  · intro c hc
    rw [String.toList_ofList] at hc
    exact h c ((List.dropWhile_sublist _).mem ((List.takeWhile_sublist _).mem hc))

/-- No name in the map breaks a line. -/
def AddressMap.Unbroken (names : AddressMap) : Prop :=
  ∀ address d, names.get? address = some d → Text.Line.Unbroken d.name

theorem AddressMap.Unbroken.callLabel {names : AddressMap} (h : names.Unbroken)
    (target : Int) : Text.Line.Unbroken (Instruction.callLabel names target) := by
  unfold Instruction.callLabel
  cases hname : names.get? target with
  | none => exact Text.Hex.unbroken_address target
  | some d => exact unbroken_baseName (h target d hname)

/-- Thunks are shown by names that there were. -/
theorem AddressMap.Unbroken.namesShown {names : AddressMap} (h : names.Unbroken)
    (opts : ComparisonOptions) (image : Image) (virtualBase : Int) (code : List UInt8)
    (address : Int) : (namesShown opts image virtualBase names code address).Unbroken := by
  rw [namesShown_eq]
  split
  · intro target d hd
    rcases get?_withThunks_eq_some_iff.mp hd with hd | hd
    · exact h target d hd
    · obtain ⟨dest, -, hdest⟩ := hd.leads
      exact h dest d hdest
  · exact h

/-- No function of the side has a name that breaks a line. -/
def ReferenceSide.NamesUnbroken (side : ReferenceSide) : Prop :=
  ∀ d ∈ side.functions.values, Unbroken d.name

/-- No symbol of the side has a name that breaks a line. -/
def RebuiltSide.NamesUnbroken (side : RebuiltSide) : Prop :=
  ∀ s ∈ side.symbols.values, Unbroken s.name

instance (side : ReferenceSide) : Decidable side.NamesUnbroken :=
  inferInstanceAs (Decidable (∀ d ∈ side.functions.values, Unbroken d.name))

instance (side : RebuiltSide) : Decidable side.NamesUnbroken :=
  inferInstanceAs (Decidable (∀ s ∈ side.symbols.values, Unbroken s.name))

theorem ReferenceSide.NamesUnbroken.addressMap {side : ReferenceSide}
    (h : side.NamesUnbroken) : side.addressMap.Unbroken :=
  fun _ d hd => h d (mem_of_get?_ofDefinitions hd).1

theorem RebuiltSide.NamesUnbroken.addressMap {side : RebuiltSide}
    (h : side.NamesUnbroken) : side.addressMap.Unbroken := by
  intro address d hd
  obtain ⟨name, s, hs, -, rfl⟩ := exists_symbol_of_get?_addressMap hd
  exact h s (List.mem_map_of_mem (f := (·.2)) (Catalog.get?_eq_some_iff.mp hs))

/-! ## Decoded sides -/

/-- What a comparison decodes on one side, and the map by which it shows the calls. -/
structure Decoded where
  instructions : List Instruction
  names : AddressMap

namespace Decoded

def lines (opts : LineOptions) (side : Decoded) : List String :=
  side.instructions.map (·.line opts side.names)

/-- No call is shown by a label with a line break in it. -/
def LabelsUnbroken (side : Decoded) : Prop :=
  ∀ insn ∈ side.instructions, ∀ target, callTarget? insn = some target →
    Unbroken (Instruction.callLabel side.names target)

end Decoded

/-- The decoded code of a function on one side, nothing where it is not known. -/
def decodedSide {ι : Type} (opts : ComparisonOptions) (image : Image) (virtualBase : Int)
    (names : AddressMap) (address : ι → Int) (known : Option ι) (code : List UInt8) :
    Decoded :=
  match known with
  | none => ⟨[], names⟩
  | some x =>
    ⟨decodeAll code (address x), namesShown opts image virtualBase names code (address x)⟩

def decodedReference (opts : ComparisonOptions) (reference : ReferenceSide) :
    Option Definition → List UInt8 → Decoded :=
  decodedSide opts reference.image reference.addressOffset reference.addressMap (·.address)

def decodedRebuilt (opts : ComparisonOptions) (rebuilt : RebuiltSide) :
    Option Symbol → List UInt8 → Decoded :=
  decodedSide opts rebuilt.image rebuilt.segmentOffset rebuilt.addressMap
    rebuilt.virtualAddress

section Side

variable {ι : Type} {opts : ComparisonOptions} {image : Image} {virtualBase : Int}
  {names : AddressMap} {address : ι → Int} {known : Option ι} {code : List UInt8}

/-- The text of a side is read back as the lines of its instructions unless a label has
a line break. -/
theorem split_sideText_iff {text : String}
    (h : sideText opts image virtualBase names address known code = .ok text) :
    let side := decodedSide opts image virtualBase names address known code
    split text = side.lines opts.lines ↔ side.LabelsUnbroken := by
  cases known with
  | none =>
    obtain rfl : "" = text := Except.ok.inj h
    refine iff_of_true rfl ?_
    simp [decodedSide, Decoded.LabelsUnbroken]
  | some x =>
    obtain ⟨insns, hcomplete, rfl⟩ := render_eq_ok_iff.mp h
    obtain ⟨rfl, -⟩ := complete_eq_ok_iff.mp hcomplete
    simp only [decodedSide, Decoded.lines, Decoded.LabelsUnbroken, split_terminated_iff,
      List.forall_mem_map]
    refine forall₂_congr fun insn hinsn => ?_
    exact Instruction.unbroken_line_iff (oneLine_of_mem_decodeAll insn hinsn)
      (callsOnce_of_mem_decodeAll insn hinsn)

theorem labelsUnbroken_decodedSide (h : names.Unbroken) :
    (decodedSide opts image virtualBase names address known code).LabelsUnbroken := by
  intro insn hinsn target _
  cases known with
  | none => exact h.callLabel target
  | some x => exact (h.namesShown opts image virtualBase code (address x)).callLabel target

end Side

/-! ## Comparisons -/

variable {opts : ComparisonOptions} {reference : ReferenceSide} {rebuilt : RebuiltSide}
  {name : String}

/-- The rows, the number of lines and the ratio are those of the instructions. -/
structure Diff.TextDiff.CountsInstructions (d : Diff.TextDiff) (opts : LineOptions)
    (old new : Decoded) : Prop where
  alignment : d.alignment = Diff.align (fun _ => true) (old.lines opts) (new.lines opts)
  totalLines : d.totalLines = old.instructions.length + new.instructions.length
  ratio : d.ratio =
    if old.instructions.length + new.instructions.length = 0 then 1.0
    else Float.ofNat (2 * d.matchingLines) /
      Float.ofNat (old.instructions.length + new.instructions.length)

theorem Diff.countsInstructions_compareTexts {oldName newName oldText newText : String}
    {old new : Decoded} {opts : LineOptions} (hold : split oldText = old.lines opts)
    (hnew : split newText = new.lines opts) :
    (compareTexts oldName newName oldText newText).CountsInstructions opts old new := by
  have htotal : (compareTexts oldName newName oldText newText).totalLines =
      old.instructions.length + new.instructions.length := by
    simp only [compareTexts, hold, hnew, Decoded.lines, List.length_map]
  refine ⟨?_, htotal, ?_⟩
  · rw [compareTexts, hold, hnew]
  · rw [TextDiff.ratio, htotal]

/-- The texts of a comparison have one line for each instruction exactly if no call is
shown by a label with a line break, which no label has where no name has one; then the
difference counts instructions. -/
theorem one_line_for_each_instruction {diff : Diff.TextDiff}
    (h : (compare opts reference rebuilt name).result = .ok diff) :
    ∃ plan referenceCode rebuiltCode,
      planExtraction opts.truncateToReference name (reference.functions.get? name)
        (rebuilt.symbols.get? name) = .ok plan ∧
      carve reference.image name ((reference.functions.get? name).map reference.fileOffset)
        plan.referenceSize = .ok referenceCode ∧
      carve rebuilt.image name ((rebuilt.symbols.get? name).map (·.offset))
        plan.rebuiltSize = .ok rebuiltCode ∧
      let old := decodedReference opts reference (reference.functions.get? name) referenceCode
      let new := decodedRebuilt opts rebuilt (rebuilt.symbols.get? name) rebuiltCode
      (split diff.oldText = old.lines opts.lines ↔ old.LabelsUnbroken) ∧
      (split diff.newText = new.lines opts.lines ↔ new.LabelsUnbroken) ∧
      (reference.NamesUnbroken → old.LabelsUnbroken) ∧
      (rebuilt.NamesUnbroken → new.LabelsUnbroken) ∧
      (old.LabelsUnbroken → new.LabelsUnbroken →
        diff.CountsInstructions opts.lines old new) := by
  obtain ⟨plan, referenceCode, rebuiltCode, oldText, newText, hcompared, rfl⟩ :=
    result_compare_eq_ok_iff.mp h
  have hold := split_sideText_iff hcompared.renderedReference
  have hnew := split_sideText_iff hcompared.renderedRebuilt
  refine ⟨plan, referenceCode, rebuiltCode, hcompared.planned, hcompared.carvedReference,
    hcompared.carvedRebuilt, hold, hnew, ?_, ?_, ?_⟩
  · exact fun hnames => labelsUnbroken_decodedSide hnames.addressMap
  · exact fun hnames => labelsUnbroken_decodedSide hnames.addressMap
  · exact fun hunbroken hunbroken' =>
      Diff.countsInstructions_compareTexts (hold.mpr hunbroken) (hnew.mpr hunbroken')

/-- A call of a function without a line break in its name has one line. -/
theorem call_has_one_line :
    let reference : ReferenceSide :=
      { image := ⟨[0xE8, 0, 0, 0, 0, 0xC3]⟩
        functions := Catalog.ofList [("f", ⟨"f", 0, some 5⟩), ("g", ⟨"g", 5, some 1⟩)]
        addressOffset := 0 }
    let rebuilt : RebuiltSide :=
      { image := ⟨[0xE8, 0, 0, 0, 0]⟩
        symbols := Catalog.ofList [("f", ⟨"f", "f.c", 0, 5⟩)]
        segmentOffset := defaultSegmentOffset }
    ∃ diff, (compare {} reference rebuilt "f").result = .ok diff ∧
      split diff.oldText = ["call g"] ∧ diff.totalLines = 2 := by
  intro reference rebuilt
  have hchecked : (compare {} reference rebuilt "f").result.isOk = true ∧
      reference.NamesUnbroken ∧ rebuilt.NamesUnbroken := by
    decide +kernel +zetaReduce
  obtain ⟨hsucceeds, hunbroken, hunbroken'⟩ := hchecked
  obtain ⟨diff, hdiff⟩ := isOk_iff.mp hsucceeds
  obtain ⟨plan, referenceCode, rebuiltCode, hplan, hreference, hrebuilt, hold, -, hnames,
    hnames', hcounts⟩ := one_line_for_each_instruction hdiff
  obtain rfl : ⟨some 5, some 5⟩ = plan := Except.ok.inj hplan
  obtain rfl : [0xE8, 0, 0, 0, 0] = referenceCode := Except.ok.inj hreference
  obtain rfl : [0xE8, 0, 0, 0, 0] = rebuiltCode := Except.ok.inj hrebuilt
  refine ⟨diff, hdiff, ?_, ?_⟩
  · refine (hold.mpr (hnames hunbroken)).trans ?_
    decide +kernel +zetaReduce
  · refine (hcounts (hnames hunbroken) (hnames' hunbroken')).totalLines.trans ?_
    decide +kernel +zetaReduce

/-- A vertical tab in the name of the called function makes two lines of its call. -/
theorem call_has_two_lines :
    let reference : ReferenceSide :=
      { image := ⟨[0xE8, 0, 0, 0, 0, 0xC3]⟩
        functions := Catalog.ofList
          [("f", ⟨"f", 0, some 5⟩), ("a\x0bb", ⟨"a\x0bb", 5, none⟩)]
        addressOffset := 0 }
    let rebuilt : RebuiltSide :=
      { image := ⟨[0xE8, 0, 0, 0, 0]⟩
        symbols := Catalog.ofList [("f", ⟨"f", "f.c", 0, 5⟩)]
        segmentOffset := defaultSegmentOffset }
    (decodeAll [0xE8, 0, 0, 0, 0] 0).length = 1 ∧
      (decodeAll [0xE8, 0, 0, 0, 0] defaultSegmentOffset).length = 1 ∧
      ∃ diff, (compare {} reference rebuilt "f").result = .ok diff ∧
        split diff.oldText = ["call a", "b"] ∧ diff.totalLines = 3 := by
  intro reference rebuilt
  have hchecked : (compare {} reference rebuilt "f").result.isOk = true ∧
      (decodeAll [0xE8, 0, 0, 0, 0] 0).length = 1 ∧
      (decodeAll [0xE8, 0, 0, 0, 0] defaultSegmentOffset).length = 1 ∧
      ∀ diff ∈ (compare {} reference rebuilt "f").result.toOption,
        split diff.oldText = ["call a", "b"] ∧ diff.totalLines = 3 := by
    decide +kernel +zetaReduce
  obtain ⟨hsucceeds, hold, hnew, hlines⟩ := hchecked
  obtain ⟨diff, hdiff⟩ := isOk_iff.mp hsucceeds
  exact ⟨hold, hnew, diff, hdiff, hlines diff (by rw [hdiff]; rfl)⟩

end BinMatch
