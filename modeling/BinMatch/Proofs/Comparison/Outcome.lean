import BinMatch.Comparison
import BinMatch.Proofs.Log
import BinMatch.Proofs.X86.Rendering

/-!
# Outcome of a comparison

A comparison succeeds when its steps do: the sizes are planned, both codes are carved
out and both are rendered.  Resolving thunks chooses the map that a listing shows its
calls by and can fail only where the listing fails as well.
-/

namespace BinMatch

open X86

variable [Decoder]

/-- The map by which a listing shows its calls. -/
def namesShown (opts : ComparisonOptions) (image : Image) (virtualBase : Int)
    (names : AddressMap) (code : List UInt8) (address : Int) : AddressMap :=
  if opts.resolveThunks then
    ((Disassembly.ofCode code address).instructions.foldlM
      (addThunk image virtualBase names) names).value
  else names

theorem result_resolveThunks (image : Image) (virtualBase : Int)
    (names : AddressMap) (code : List UInt8) (address : Int) :
    (resolveThunks image virtualBase names code address).result =
      (Disassembly.ofCode code address).complete.map fun _ =>
        ((Disassembly.ofCode code address).instructions.foldlM
          (addThunk image virtualBase names) names).value := by
  simp only [resolveThunks, Checked.result_bind, Checked.result_lift,
    Checked.result_ofExcept, Checked.result_pure]
  cases (Disassembly.ofCode code address).complete <;> rfl

theorem result_listingOf (opts : ComparisonOptions) (image : Image)
    (virtualBase : Int) (names : AddressMap) (code : List UInt8) (address : Int) :
    (listingOf opts image virtualBase names code address).result =
      render opts.lines (namesShown opts image virtualBase names code address)
        code address := by
  simp only [listingOf, namesShown]
  by_cases hthunks : opts.resolveThunks = true
  · simp only [if_pos hthunks, Checked.result_bind, Checked.result_ofExcept,
      result_resolveThunks]
    cases hcomplete : (Disassembly.ofCode code address).complete with
    | ok insns => rfl
    | error e => exact (render_eq_error_iff.mpr hcomplete).symm
  · simp only [if_neg hthunks, Checked.result_bind, Checked.result_pure,
      Checked.result_ofExcept]
    rfl

/-- The text of a function on one side, empty where the function is not known. -/
def sideText {ι : Type} (opts : ComparisonOptions) (image : Image) (virtualBase : Int)
    (names : AddressMap) (address : ι → Int) (known : Option ι) (code : List UInt8) :
    Except Error String :=
  match known with
  | none => .ok ""
  | some x =>
    render opts.lines (namesShown opts image virtualBase names code (address x)) code
      (address x)

def referenceText (opts : ComparisonOptions) (reference : ReferenceSide) :
    Option Definition → List UInt8 → Except Error String :=
  sideText opts reference.image reference.addressOffset reference.addressMap (·.address)

def rebuiltText (opts : ComparisonOptions) (rebuilt : RebuiltSide) :
    Option Symbol → List UInt8 → Except Error String :=
  sideText opts rebuilt.image rebuilt.segmentOffset rebuilt.addressMap
    rebuilt.virtualAddress

/-- The steps of a comparison that succeeds. -/
structure Compared (opts : ComparisonOptions) (reference : ReferenceSide)
    (rebuilt : RebuiltSide) (name : String) (plan : ExtractionPlan)
    (referenceCode rebuiltCode : List UInt8) (oldText newText : String) : Prop where
  known : (reference.functions.get? name).isSome ∨ (rebuilt.symbols.get? name).isSome
  planned : planExtraction opts.truncateToReference name
    (reference.functions.get? name) (rebuilt.symbols.get? name) = .ok plan
  carvedReference : carve reference.image name
    ((reference.functions.get? name).map reference.fileOffset)
    plan.referenceSize = .ok referenceCode
  carvedRebuilt : carve rebuilt.image name
    ((rebuilt.symbols.get? name).map (·.offset)) plan.rebuiltSize = .ok rebuiltCode
  renderedReference : referenceText opts reference
    (reference.functions.get? name) referenceCode = .ok oldText
  renderedRebuilt : rebuiltText opts rebuilt
    (rebuilt.symbols.get? name) rebuiltCode = .ok newText

variable {opts : ComparisonOptions} {reference : ReferenceSide}
  {rebuilt : RebuiltSide} {name : String}

/-- A comparison step by step, without remarks. -/
theorem result_compare :
    (compare opts reference rebuilt name).result =
      (if (reference.functions.get? name).isNone &&
          (rebuilt.symbols.get? name).isNone then .error (.symbolNotFound name)
      else do
        let plan ← planExtraction opts.truncateToReference name
          (reference.functions.get? name) (rebuilt.symbols.get? name)
        let referenceCode ← carve reference.image name
          ((reference.functions.get? name).map reference.fileOffset)
          plan.referenceSize
        let rebuiltCode ← carve rebuilt.image name
          ((rebuilt.symbols.get? name).map (·.offset)) plan.rebuiltSize
        let oldText ← referenceText opts reference
          (reference.functions.get? name) referenceCode
        let newText ← rebuiltText opts rebuilt
          (rebuilt.symbols.get? name) rebuiltCode
        .ok (Diff.compareTexts referenceListingName rebuiltListingName oldText
          newText)) := by
  simp only [compare, referenceText, rebuiltText, sideText]
  -- What follows a side's text is part of both of its cases, so they come first.
  cases reference.functions.get? name <;> cases rebuilt.symbols.get? name <;>
    simp only [Option.isNone_none, Option.isNone_some, Bool.and_self,
      Bool.and_false, Bool.false_and, Bool.false_eq_true, if_true, if_false,
      Checked.result_throw, Checked.result_bind, Checked.result_pure,
      Checked.result_ofExcept, result_listingOf]
  rfl

theorem result_compare_eq_ok_iff {d : Diff.TextDiff} :
    (compare opts reference rebuilt name).result = .ok d ↔
      ∃ plan referenceCode rebuiltCode oldText newText,
        Compared opts reference rebuilt name plan referenceCode rebuiltCode
          oldText newText ∧
        d = Diff.compareTexts referenceListingName rebuiltListingName oldText
          newText := by
  rw [result_compare]
  constructor
  · intro h
    split at h
    · simp at h
    · rename_i hknown
      simp only [except_bind_eq_ok_iff, Except.ok.injEq] at h
      obtain ⟨plan, hplan, c₁, hc₁, c₂, hc₂, t₁, ht₁, t₂, ht₂, rfl⟩ := h
      refine ⟨plan, c₁, c₂, t₁, t₂, ⟨?_, hplan, hc₁, hc₂, ht₁, ht₂⟩, rfl⟩
      cases hd : reference.functions.get? name <;>
        cases hs : rebuilt.symbols.get? name <;> simp_all
  · rintro ⟨plan, c₁, c₂, t₁, t₂, h, rfl⟩
    rw [if_neg]
    · simp only [except_bind_eq_ok_iff, Except.ok.injEq]
      exact ⟨plan, h.planned, c₁, h.carvedReference, c₂, h.carvedRebuilt, t₁,
        h.renderedReference, t₂, h.renderedRebuilt, rfl⟩
    · have := h.known
      cases hd : reference.functions.get? name <;>
        cases hs : rebuilt.symbols.get? name <;> simp_all

end BinMatch
