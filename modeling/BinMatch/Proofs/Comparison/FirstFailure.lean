import BinMatch.Proofs.Comparison.Match
import BinMatch.Proofs.X86.Disassembly

/-!
# The failure that a comparison ends in

Sizes are settled before any byte is taken, both sides are taken before any byte is
decoded, and the reference side comes first.  `firstFailure?` looks for failures in
this order; what an instruction line shows and whether thunks are resolved has no part
in it.
-/

namespace BinMatch

open X86

/-- The part of a binary that a comparison takes for one side. -/
structure Portion where
  image : Image
  offset : Int
  size : Int
  /-- Where the part stands when it is decoded. -/
  address : Int

namespace Portion

def bytes (p : Portion) : List UInt8 :=
  (p.image.bytes.drop p.offset.toNat).take p.size.toNat

/-- The failure of a part that has a negative bound or ends behind its image. -/
def boundsFailure? (name : String) (p : Portion) : Option Error :=
  if p.offset < 0 ∨ p.size < 0 ∨ p.image.size < p.offset + p.size then
    some (.outOfBounds name p.offset p.size p.image.size)
  else none

/-- The failure of a part whose instructions do not reach its end. -/
def decodeFailure? [Decoder] (p : Portion) : Option Error :=
  if decodedLength p.bytes < p.bytes.length then
    some (.undecodable (p.address + decodedLength p.bytes))
  else none

/-- Every instruction is reported behind the bytes in front of it. -/
def Placed [Decoder] (p : Portion) : Prop :=
  Consecutive p.address (decodeAll p.bytes p.address)

end Portion

section Sides

variable (truncate : Bool) (reference : ReferenceSide) (rebuilt : RebuiltSide)
  (name : String)

/-- A declared size counts on the reference side, else the size of the symbol. -/
def referencePortion? : Option Portion :=
  (reference.functions.get? name).map fun d =>
    { image := reference.image
      offset := reference.fileOffset d
      size := (d.size.or ((rebuilt.symbols.get? name).map (·.size))).getD 0
      address := d.address }

/-- The size of the symbol counts on the rebuilt side, with truncation the declared. -/
def rebuiltPortion? : Option Portion :=
  (rebuilt.symbols.get? name).map fun s =>
    { image := rebuilt.image
      offset := s.offset
      size := if truncate then
          ((reference.functions.get? name).bind (·.size)).getD 0
        else s.size
      address := rebuilt.virtualAddress s }

/-- The parts of the sides that know the name, the reference side first. -/
def portions : List Portion :=
  (referencePortion? reference rebuilt name).toList ++
    (rebuiltPortion? truncate reference rebuilt name).toList

/-- Truncation needs a declared size; otherwise one side has to know a size of a
function that the reference side declares. -/
def sizeFailure? : Option Error :=
  let declared := reference.functions.get? name
  if truncate = true ∧ declared.bind (·.size) = none then some (.requiredSize name)
  else if declared.map (·.size) = some none ∧ rebuilt.symbols.get? name = none then
    some (.missingSize name)
  else none

/-- The failure that comes first, if there is one. -/
def firstFailure? [Decoder] : Option Error :=
  if reference.functions.get? name = none ∧ rebuilt.symbols.get? name = none then
    some (.symbolNotFound name)
  else
    let taken := portions truncate reference rebuilt name
    (sizeFailure? truncate reference rebuilt name).or
      ((taken.findSome? (Portion.boundsFailure? name)).or
        (taken.findSome? Portion.decodeFailure?))

end Sides

/-! ## One side -/

namespace Portion

variable {p : Portion} {name : String}

theorem slice_eq (p : Portion) (name : String) :
    p.image.slice name p.offset p.size =
      unlessFailed (p.boundsFailure? name) p.bytes := by
  have hcovers : p.image.covers p.offset p.size = true ↔
      ¬ (p.offset < 0 ∨ p.size < 0 ∨ p.image.size < p.offset + p.size) := by
    rw [covers_iff, Image.size]
    omega
  by_cases houtside : p.offset < 0 ∨ p.size < 0 ∨ p.image.size < p.offset + p.size
  · have hnot : ¬ p.image.covers p.offset p.size = true := fun h => hcovers.mp h houtside
    rw [Image.slice, if_neg hnot, boundsFailure?, if_pos houtside]
    rfl
  · rw [Image.slice, if_pos (hcovers.mpr houtside), boundsFailure?, if_neg houtside]
    rfl

theorem render_eq [Decoder] (hplaced : p.Placed) (opts : LineOptions)
    (names : AddressMap) :
    ∃ text, render opts names p.bytes p.address = unlessFailed p.decodeFailure? text := by
  have hcomplete := complete_of_consecutive hplaced
  by_cases hshort : decodedLength p.bytes < p.bytes.length
  · rw [if_pos hshort] at hcomplete
    refine ⟨"", ?_⟩
    rw [decodeFailure?, if_pos hshort]
    exact render_eq_error_iff.mpr hcomplete
  · rw [if_neg hshort] at hcomplete
    obtain ⟨text, htext⟩ : ∃ text, render opts names p.bytes p.address = .ok text :=
      ⟨_, render_eq_ok_iff.mpr ⟨_, hcomplete, rfl⟩⟩
    refine ⟨text, ?_⟩
    rw [decodeFailure?, if_neg hshort]
    exact htext

theorem findSome?_toList_append (p? q? : Option Portion) (f : Portion → Option Error) :
    (p?.toList ++ q?.toList).findSome? f = (p?.bind f).or (q?.bind f) := by
  rw [List.findSome?_append]
  cases p? <;> cases q? <;> simp

section Side

variable {ι : Type} {opts : ComparisonOptions} {image : Image} {virtualBase : Int}
  {names : AddressMap} {offset size address : ι → Int} {known : Option ι}
  {p? : Option Portion}

/-- Either the bounds of a side are wrong or its bytes are taken. -/
theorem carve_eq (name : String)
    (hp : p? = known.map fun x => ⟨image, offset x, size x, address x⟩) :
    carve image name (known.map offset) (known.map size) =
      unlessFailed (p?.bind (boundsFailure? name)) (p?.elim [] bytes) := by
  subst hp
  cases known with
  | none => rfl
  | some x => exact slice_eq ⟨image, offset x, size x, address x⟩ name

/-- Either the bytes of a side are not decoded to the end or there is a text. -/
theorem sideText_eq [Decoder]
    (hp : p? = known.map fun x => ⟨image, offset x, size x, address x⟩)
    (hplaced : ∀ p ∈ p?, p.Placed) :
    ∃ text, sideText opts image virtualBase names address known (p?.elim [] bytes) =
      unlessFailed (p?.bind decodeFailure?) text := by
  subst hp
  cases known with
  | none => exact ⟨"", rfl⟩
  | some x => exact render_eq (hplaced _ rfl) _ _

end Side

end Portion

/-! ## Both sides -/

section Outcome

variable {opts : ComparisonOptions} {reference : ReferenceSide}
  {rebuilt : RebuiltSide} {name : String}

theorem planExtraction_eq (truncate : Bool) :
    planExtraction truncate name (reference.functions.get? name)
        (rebuilt.symbols.get? name) =
      unlessFailed (sizeFailure? truncate reference rebuilt name)
        { referenceSize := (reference.functions.get? name).map fun d =>
            (d.size.or ((rebuilt.symbols.get? name).map (·.size))).getD 0
          rebuiltSize := (rebuilt.symbols.get? name).map fun s =>
            if truncate then ((reference.functions.get? name).bind (·.size)).getD 0
            else s.size } := by
  rw [sizeFailure?]
  cases reference.functions.get? name with
  | none => cases truncate <;> cases rebuilt.symbols.get? name <;> rfl
  | some d =>
    obtain ⟨name', address, size⟩ := d
    cases size <;> cases truncate <;> cases rebuilt.symbols.get? name <;> rfl

theorem result_compare_of_placed [Decoder]
    (hplaced : ∀ p ∈ portions opts.truncateToReference reference rebuilt name, p.Placed) :
    ∃ d, (compare opts reference rebuilt name).result =
      unlessFailed (firstFailure? opts.truncateToReference reference rebuilt name) d := by
  have hreference : ∀ p ∈ referencePortion? reference rebuilt name, p.Placed :=
    fun p hp => hplaced p (List.mem_append_left _ (Option.mem_toList.mpr hp))
  have hrebuilt :
      ∀ p ∈ rebuiltPortion? opts.truncateToReference reference rebuilt name, p.Placed :=
    fun p hp => hplaced p (List.mem_append_right _ (Option.mem_toList.mpr hp))
  have hcarved := Portion.carve_eq name
    (rfl : referencePortion? reference rebuilt name = _)
  have hcarved' := Portion.carve_eq name
    (rfl : rebuiltPortion? opts.truncateToReference reference rebuilt name = _)
  obtain ⟨oldText, hold⟩ : ∃ text, referenceText opts reference _ _ = _ :=
    Portion.sideText_eq (rfl : referencePortion? reference rebuilt name = _) hreference
  obtain ⟨newText, hnew⟩ : ∃ text, rebuiltText opts rebuilt _ _ = _ :=
    Portion.sideText_eq
      (rfl : rebuiltPortion? opts.truncateToReference reference rebuilt name = _) hrebuilt
  refine ⟨Diff.compareTexts referenceListingName rebuiltListingName oldText newText, ?_⟩
  rw [result_compare, firstFailure?]
  by_cases hunknown : reference.functions.get? name = none ∧
      rebuilt.symbols.get? name = none
  · rw [if_pos (by simpa using hunknown), if_pos hunknown]
    rfl
  · rw [if_neg (by simpa using hunknown), if_neg hunknown, planExtraction_eq]
    simp only [portions, Portion.findSome?_toList_append, Option.or_assoc]
    -- One step of the comparison after the other, each with its own failure.
    refine unlessFailed_bind ?_
    rw [hcarved]
    refine unlessFailed_bind ?_
    rw [hcarved']
    refine unlessFailed_bind ?_
    rw [hold]
    refine unlessFailed_bind ?_
    rw [hnew]
    exact unlessFailed_bind_ok

end Outcome

/-- A comparison ends in the failure that comes first and has a result without one,
whatever is shown and whether or not thunks are resolved. -/
theorem outcome_compare [Decoder] {opts : ComparisonOptions}
    {reference : ReferenceSide} {rebuilt : RebuiltSide} {name : String}
    (hplaced : ∀ p ∈ portions opts.truncateToReference reference rebuilt name, p.Placed) :
    (∀ e, (compare opts reference rebuilt name).result = .error e ↔
      firstFailure? opts.truncateToReference reference rebuilt name = some e) ∧
    ((∃ d, (compare opts reference rebuilt name).result = .ok d) ↔
      firstFailure? opts.truncateToReference reference rebuilt name = none) ∧
    ∀ opts' : ComparisonOptions, opts'.truncateToReference = opts.truncateToReference →
      ∀ e, (compare opts' reference rebuilt name).result = .error e ↔
        (compare opts reference rebuilt name).result = .error e := by
  obtain ⟨d, hd⟩ := result_compare_of_placed hplaced
  refine ⟨fun e => ?_, ?_, fun opts' htruncate e => ?_⟩
  · rw [hd, unlessFailed_eq_error_iff]
  · simp [hd, unlessFailed_eq_ok_iff]
  · rw [← htruncate] at hplaced hd
    obtain ⟨d', hd'⟩ := result_compare_of_placed hplaced
    rw [hd, hd', unlessFailed_eq_error_iff, unlessFailed_eq_error_iff]

/-- Both sides lie inside their images, and the rebuilt code breaks off behind its
return. -/
theorem outcome_of_code_that_breaks_off :
    let reference : ReferenceSide :=
      { image := ⟨[0x90, 0x90, 0xC3]⟩
        functions := Catalog.ofList [("f", ⟨"f", 0x401001, none⟩)]
        addressOffset := 0x401000 }
    let rebuilt : RebuiltSide :=
      { image := ⟨[0xC3, 0xFF]⟩
        symbols := Catalog.ofList [("f", ⟨"f", "f.c", 0, 2⟩)]
        segmentOffset := defaultSegmentOffset }
    (∀ p ∈ portions false reference rebuilt "f", p.Placed) ∧
      (compare { resolveThunks := true } reference rebuilt "f").result =
        .error (.undecodable (defaultSegmentOffset + 1)) := by
  intro reference rebuilt
  have hplaced : ∀ p ∈ portions false reference rebuilt "f", p.Placed := by
    have hportions : portions false reference rebuilt "f" =
        [⟨⟨[0x90, 0x90, 0xC3]⟩, 1, 2, 0x401001⟩,
          ⟨⟨[0xC3, 0xFF]⟩, 0, 2, defaultSegmentOffset⟩] := rfl
    rw [hportions, List.forall_mem_cons, List.forall_mem_singleton]
    exact ⟨consecutive_decodeAll (by decide) (by decide),
      consecutive_decodeAll (by decide) (by decide)⟩
  have houtcome :=
    @outcome_compare tableDecoder { resolveThunks := true } reference rebuilt "f" hplaced
  exact ⟨hplaced, (houtcome.1 _).mpr (by decide +kernel +zetaReduce)⟩

end BinMatch
