import BinMatch.Proofs.Comparison.Outcome
import BinMatch.Proofs.Diff.TextDiff
import BinMatch.Proofs.Image
import BinMatch.Symbol.Extraction
import BinMatch.X86.TableDecoder

/-!
# What a match rests on

A match rests on code of both sides unless no byte at all was taken: a size of zero
is taken like any other, also where it stands for a size that was not recorded, and
two listings without a line have the same lines.
-/

namespace BinMatch

open X86

/-! ## Planned sizes -/

theorem isSome_of_planned {truncate : Bool} {name : String}
    {declared : Option Definition} {symbol : Option Symbol} {plan : ExtractionPlan}
    (h : planExtraction truncate name declared symbol = .ok plan) :
    plan.referenceSize.isSome = declared.isSome ∧
      plan.rebuiltSize.isSome = symbol.isSome := by
  simp only [planExtraction] at h
  cases declared with
  | none =>
    cases truncate <;> cases symbol <;> cases h <;> exact ⟨rfl, rfl⟩
  | some d =>
    cases hsize : d.size <;> simp only [hsize, Option.bind_some] at h <;>
      cases truncate <;> cases symbol <;> cases h <;> exact ⟨rfl, rfl⟩

/-- No size is known where the declaration has none and there is no symbol. -/
theorem planExtraction_eq_missingSize_iff {truncate : Bool} {name : String}
    {declared : Option Definition} {symbol : Option Symbol} :
    planExtraction truncate name declared symbol = .error (.missingSize name) ↔
      truncate = false ∧ (∃ d, declared = some d ∧ d.size = none) ∧
        symbol = none := by
  simp only [planExtraction]
  cases declared with
  | none => cases truncate <;> cases symbol <;> simp [bind, Except.bind, pure, Except.pure,
      throw, throwThe, MonadExceptOf.throw]
  | some d =>
    cases hsize : d.size <;> cases truncate <;> cases symbol <;>
      simp [hsize, bind, Except.bind, pure, Except.pure, throw, throwThe,
        MonadExceptOf.throw]

/-! ## Carved code -/

theorem carve_eq_nil_iff {image : Image} {name : String} {offset size : Int} :
    carve image name (some offset) (some size) = .ok [] ↔
      size = 0 ∧ image.covers offset 0 = true := by
  constructor
  · intro h
    have hsize : size = 0 := (length_slice h).symm
    subst hsize
    refine ⟨rfl, ?_⟩
    by_contra hcovers
    simp [carve, Image.slice, hcovers] at h
  · rintro ⟨rfl, hcovers⟩
    simp [carve, Image.slice, hcovers]

theorem carve_ne_missingSize (image : Image) (name : String)
    (offset size : Option Int) : carve image name offset size ≠ .error (.missingSize name) := by
  cases offset <;> cases size <;> simp only [carve, pure, Except.pure, ne_eq, reduceCtorEq,
    not_false_eq_true, Image.slice]
  split <;> simp

theorem render_ne_missingSize [Decoder] (opts : LineOptions) (names : AddressMap)
    (code : List UInt8) (address : Int) (name : String) :
    render opts names code address ≠ .error (.missingSize name) := by
  rw [Ne, render_eq_error_iff, Disassembly.complete]
  split <;> simp [Error.undecodable]

/-! ## One side -/

section Side

variable {ι : Type} {opts : ComparisonOptions} {image : Image} {name : String}
  {virtualBase : Int} {names : AddressMap} {offset address : ι → Int}
  {known : Option ι} {size : Option Int} {code : List UInt8} {text : String}

theorem sideText_nil [Decoder] :
    sideText opts image virtualBase names address known [] = .ok "" := by
  cases known with
  | none => rfl
  | some x => exact render_eq_ok_iff.mpr ⟨[], complete_ofCode_nil _, rfl⟩

theorem sideText_ne_missingSize [Decoder] :
    sideText opts image virtualBase names address known code ≠
      .error (.missingSize name) := by
  cases known with
  | none => simp [sideText]
  | some x => exact render_ne_missingSize _ _ _ _ _

/-- Where every known function has a size, nothing is carved out exactly if there is
no function or its size is zero at an offset inside the image. -/
theorem carve_known_eq_nil_iff (hsize : size.isSome = known.isSome) :
    carve image name (known.map offset) size = .ok [] ↔
      ∀ x, known = some x → size = some 0 ∧ image.covers (offset x) 0 = true := by
  cases known with
  | none => simp [carve, pure, Except.pure]
  | some x =>
    obtain ⟨n, rfl⟩ := Option.isSome_iff_exists.mp hsize
    rw [Option.map_some, carve_eq_nil_iff]
    simp

/-- A function that is not known has no code. -/
theorem eq_nil_of_carve_none (h : carve image name none size = .ok code) : code = [] :=
  (Except.ok.inj h).symm

/-- The text of a side has lines exactly when the side has code. -/
theorem split_sideText_eq_nil_iff [Decoder]
    (hcarved : carve image name (known.map offset) size = .ok code)
    (htext : sideText opts image virtualBase names address known code = .ok text) :
    Text.Line.split text = [] ↔ code = [] := by
  cases known with
  | none =>
    obtain rfl : "" = text := Except.ok.inj htext
    rw [eq_nil_of_carve_none hcarved, Text.Line.split_eq_nil_iff]
    simp
  | some x => exact split_rendered_eq_nil_iff htext

/-- Code that was carved out and rendered belongs to a function and has instructions. -/
theorem exists_instructions_of_carve [Decoder]
    (hcarved : carve image name (known.map offset) size = .ok code)
    (htext : sideText opts image virtualBase names address known code = .ok text)
    (hcode : code ≠ []) :
    ∃ x, known = some x ∧
      (Disassembly.ofCode code (address x)).instructions ≠ [] := by
  cases known with
  | none => exact absurd (eq_nil_of_carve_none hcarved) hcode
  | some x =>
    obtain ⟨insns, hdecoded, -⟩ := render_eq_ok_iff.mp htext
    refine ⟨x, rfl, fun hnil => hcode (eq_nil_of_complete (hdecoded.trans ?_))⟩
    rw [← (complete_eq_ok_iff.mp hdecoded).1]
    exact congrArg Except.ok hnil

end Side

/-! ## Matches -/

/-- Both sides know the name, and the code of either holds an instruction. -/
def RestsOnCode [Decoder] (opts : ComparisonOptions) (reference : ReferenceSide)
    (rebuilt : RebuiltSide) (name : String) : Prop :=
  ∃ plan referenceCode rebuiltCode oldText newText d s,
    Compared opts reference rebuilt name plan referenceCode rebuiltCode oldText
      newText ∧
    reference.functions.get? name = some d ∧
    rebuilt.symbols.get? name = some s ∧
    (Disassembly.ofCode referenceCode d.address).instructions ≠ [] ∧
    (Disassembly.ofCode rebuiltCode (rebuilt.virtualAddress s)).instructions ≠ []

/-- A side knows the name, and no byte is taken on any side that does. -/
structure TakesNothing (opts : ComparisonOptions) (reference : ReferenceSide)
    (rebuilt : RebuiltSide) (name : String) (plan : ExtractionPlan) : Prop where
  known : (reference.functions.get? name).isSome ∨ (rebuilt.symbols.get? name).isSome
  planned : planExtraction opts.truncateToReference name
    (reference.functions.get? name) (rebuilt.symbols.get? name) = .ok plan
  noReference : ∀ d, reference.functions.get? name = some d →
    plan.referenceSize = some 0 ∧
      reference.image.covers (reference.fileOffset d) 0 = true
  noRebuilt : ∀ s, rebuilt.symbols.get? name = some s →
    plan.rebuiltSize = some 0 ∧ rebuilt.image.covers s.offset 0 = true

section Match

variable [Decoder] {opts : ComparisonOptions} {reference : ReferenceSide}
  {rebuilt : RebuiltSide} {name : String} {plan : ExtractionPlan}

theorem takesNothing_iff :
    TakesNothing opts reference rebuilt name plan ↔
      Compared opts reference rebuilt name plan [] [] "" "" := by
  constructor
  · intro h
    obtain ⟨hreference, hrebuilt⟩ := isSome_of_planned h.planned
    exact ⟨h.known, h.planned, (carve_known_eq_nil_iff hreference).mpr h.noReference,
      (carve_known_eq_nil_iff hrebuilt).mpr h.noRebuilt, sideText_nil, sideText_nil⟩
  · intro h
    obtain ⟨hreference, hrebuilt⟩ := isSome_of_planned h.planned
    exact ⟨h.known, h.planned, (carve_known_eq_nil_iff hreference).mp h.carvedReference,
      (carve_known_eq_nil_iff hrebuilt).mp h.carvedRebuilt⟩

/-- Where nothing is taken the two empty listings match. -/
theorem TakesNothing.result_compare (h : TakesNothing opts reference rebuilt name plan) :
    (compare opts reference rebuilt name).result =
      .ok (Diff.compareTexts referenceListingName rebuiltListingName "" "") :=
  result_compare_eq_ok_iff.mpr ⟨plan, [], [], "", "", takesNothing_iff.mp h, rfl⟩

/-- The code that is carved out of either side depends on the plan alone. -/
theorem Compared.unique {plan' : ExtractionPlan} {c₁ c₂ c₁' c₂' : List UInt8}
    {t₁ t₂ t₁' t₂' : String}
    (h : Compared opts reference rebuilt name plan c₁ c₂ t₁ t₂)
    (h' : Compared opts reference rebuilt name plan' c₁' c₂' t₁' t₂') :
    c₁ = c₁' ∧ c₂ = c₂' := by
  have hplan : plan = plan' := Except.ok.inj (h.planned.symm.trans h'.planned)
  subst hplan
  exact ⟨Except.ok.inj (h.carvedReference.symm.trans h'.carvedReference),
    Except.ok.inj (h.carvedRebuilt.symm.trans h'.carvedRebuilt)⟩

theorem TakesNothing.not_restsOnCode
    (h : TakesNothing opts reference rebuilt name plan) :
    ¬ RestsOnCode opts reference rebuilt name := by
  rintro ⟨plan', c₁, c₂, t₁, t₂, d, s, hcompared, -, -, hcode, -⟩
  obtain ⟨rfl, -⟩ := (takesNothing_iff.mp h).unique hcompared
  exact hcode (decodeAll_nil _)

theorem Compared.restsOnCode {c₁ c₂ : List UInt8} {t₁ t₂ : String}
    (h : Compared opts reference rebuilt name plan c₁ c₂ t₁ t₂)
    (h₁ : c₁ ≠ []) (h₂ : c₂ ≠ []) : RestsOnCode opts reference rebuilt name := by
  obtain ⟨d, hd, hcode₁⟩ :=
    exists_instructions_of_carve h.carvedReference h.renderedReference h₁
  obtain ⟨s, hs, hcode₂⟩ :=
    exists_instructions_of_carve h.carvedRebuilt h.renderedRebuilt h₂
  exact ⟨plan, c₁, c₂, t₁, t₂, d, s, h, hd, hs, hcode₁, hcode₂⟩

/-- Without code on either side both texts are empty. -/
theorem Compared.takesNothing {t₁ t₂ : String}
    (h : Compared opts reference rebuilt name plan [] [] t₁ t₂) :
    TakesNothing opts reference rebuilt name plan := by
  obtain rfl : "" = t₁ := Except.ok.inj (sideText_nil.symm.trans h.renderedReference)
  obtain rfl : "" = t₂ := Except.ok.inj (sideText_nil.symm.trans h.renderedRebuilt)
  exact takesNothing_iff.mpr h

/-- Codes whose listings match are both empty or both not. -/
theorem Compared.eq_nil_iff_of_isMatch {c₁ c₂ : List UInt8} {t₁ t₂ : String}
    (h : Compared opts reference rebuilt name plan c₁ c₂ t₁ t₂)
    (hmatch : (Diff.compareTexts referenceListingName rebuiltListingName t₁
      t₂).isMatch = true) : c₁ = [] ↔ c₂ = [] := by
  rw [← split_sideText_eq_nil_iff h.carvedReference h.renderedReference,
    ← split_sideText_eq_nil_iff h.carvedRebuilt h.renderedRebuilt,
    (Diff.isMatch_compareTexts_iff _ _ t₁ t₂).mp hmatch]

theorem restsOnCode_of_match_iff :
    (∀ d, (compare opts reference rebuilt name).result = .ok d →
        d.isMatch = true → RestsOnCode opts reference rebuilt name) ↔
      ¬ ∃ plan, TakesNothing opts reference rebuilt name plan := by
  constructor
  · rintro h ⟨plan, hnothing⟩
    exact hnothing.not_restsOnCode
      (h _ hnothing.result_compare ((Diff.isMatch_compareTexts_iff _ _ _ _).mpr rfl))
  · intro h d hd hmatch
    obtain ⟨plan, c₁, c₂, t₁, t₂, hcompared, rfl⟩ := result_compare_eq_ok_iff.mp hd
    have hcode := hcompared.eq_nil_iff_of_isMatch hmatch
    by_cases hnil : c₁ = []
    · obtain rfl := hnil
      obtain rfl := hcode.mp rfl
      exact absurd ⟨plan, hcompared.takesNothing⟩ h
    · exact hcompared.restsOnCode hnil (mt hcode.mpr hnil)

/-- Only the plan asks for a size. -/
theorem result_compare_eq_missingSize_iff :
    (compare opts reference rebuilt name).result = .error (.missingSize name) ↔
      opts.truncateToReference = false ∧
        (∃ d, reference.functions.get? name = some d ∧ d.size = none) ∧
        rebuilt.symbols.get? name = none := by
  rw [← @planExtraction_eq_missingSize_iff _ name, result_compare]
  split
  · rename_i hunknown
    simp only [Bool.and_eq_true, Option.isNone_iff_eq_none] at hunknown
    simp [planExtraction_eq_missingSize_iff, hunknown]
  · simp only [except_bind_eq_error_iff, carve_ne_missingSize, referenceText, rebuiltText,
      sideText_ne_missingSize, reduceCtorEq, and_false, exists_false, or_false]

end Match

/-- A comparison reports no match without code exactly when some byte is taken.  The
error for a size that is not known is kept for a function without a symbol. -/
theorem match_rests_on_code_iff (opts : ComparisonOptions)
    (reference : ReferenceSide) (rebuilt : RebuiltSide) (name : String) :
    ((∀ d, (compare opts reference rebuilt name).result = .ok d →
        d.isMatch = true → RestsOnCode opts reference rebuilt name) ↔
      ¬ ∃ plan, TakesNothing opts reference rebuilt name plan) ∧
    ((compare opts reference rebuilt name).result = .error (.missingSize name) ↔
      opts.truncateToReference = false ∧
        (∃ d, reference.functions.get? name = some d ∧ d.size = none) ∧
        rebuilt.symbols.get? name = none) := by
  exact ⟨restsOnCode_of_match_iff, result_compare_eq_missingSize_iff⟩

/-- No side knows the size of `f`, and yet it matches with no instruction shown. -/
theorem unsized_function_matches :
    let reference : ReferenceSide :=
      { image := ⟨[0xC3]⟩
        functions := Catalog.ofList [("f", { name := "f", address := 0, size := none })]
        addressOffset := 0 }
    let record : DebugRecord :=
      { name := some "f", start := Symbol.sectionPreamble, stop := none,
        sourceFile := none }
    let rebuilt : RebuiltSide :=
      { image := ⟨[0xC3]⟩
        symbols := Catalog.ofList [("f", Symbol.ofRecord record)]
        segmentOffset := defaultSegmentOffset }
    (∃ d, (compare {} reference rebuilt "f").result = .ok d ∧ d.isMatch = true) ∧
      ¬ RestsOnCode {} reference rebuilt "f" ∧
      (compare {} reference rebuilt "f").result ≠ .error (.missingSize "f") := by
  intro reference record rebuilt
  have hreference : reference.functions.get? "f" =
      some { name := "f", address := 0, size := none } := rfl
  have hrebuilt : rebuilt.symbols.get? "f" = some (Symbol.ofRecord record) := rfl
  have hnothing : TakesNothing {} reference rebuilt "f"
      { referenceSize := some 0, rebuiltSize := some 0 } := by
    refine ⟨.inl rfl, rfl, fun d hd => ⟨rfl, ?_⟩, fun s hs => ⟨rfl, ?_⟩⟩
    · obtain rfl := Option.some.inj (hreference.symm.trans hd)
      rfl
    · obtain rfl := Option.some.inj (hrebuilt.symm.trans hs)
      rfl
  refine ⟨⟨_, hnothing.result_compare, (Diff.isMatch_compareTexts_iff _ _ _ _).mpr rfl⟩,
    hnothing.not_restsOnCode, ?_⟩
  rw [hnothing.result_compare]
  simp

end BinMatch
