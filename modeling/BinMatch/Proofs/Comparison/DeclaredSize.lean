import BinMatch.Proofs.Comparison.Truncation
import BinMatch.Proofs.Listing.Block

/-!
# Declared sizes on the rebuilt side

Under truncation the declared size takes the place of the symbol's, in a comparison and in
the listing of the rebuilt binary.  It is not the smaller one of the two: what is shown
keeps within the function where the declared size is no more than the symbol's, and goes
on behind it otherwise.
-/

namespace BinMatch

open X86

/-! ## Bytes shown -/

/-- The text shows the function from its start on, as many bytes as are declared; these
are bytes of the function exactly if its symbol has as many. -/
structure ShowsDeclared (rebuilt : RebuiltSide) (s : Symbol) (size : Int)
    (shown : List UInt8 → Except Error String) (text : String) : Prop where
  text : shown (rebuilt.image.range s.offset size) = .ok text
  length : ((rebuilt.image.range s.offset size).length : Int) = size
  own : rebuilt.image.range s.offset size <+: rebuilt.bytesOf s ↔ size ≤ s.size

section Shown

variable {opts : ComparisonOptions} {reference : ReferenceSide} {rebuilt : RebuiltSide}
  {name : String} {d : Definition} {s : Symbol} {size : Int}

theorem showsDeclared_of_slice {shown : List UInt8 → Except Error String}
    {code : List UInt8} {text : String} (hknown : 0 < s.size)
    (hslice : rebuilt.image.slice name s.offset size = .ok code)
    (hshown : shown code = .ok text) : ShowsDeclared rebuilt s size shown text := by
  obtain ⟨hcovers, rfl⟩ := slice_eq_ok_iff.mp hslice
  exact ⟨hshown, length_range hcovers, range_prefix_iff hcovers (Int.le_of_lt hknown)⟩

theorem showsDeclared_compare {t : Diff.TextDiff} (htruncate : opts.truncateToReference = true)
    (hd : reference.functions.get? name = some d) (hs : rebuilt.symbols.get? name = some s)
    (hsize : d.size = some size) (hknown : 0 < s.size)
    (h : (compare opts reference rebuilt name).result = .ok t) :
    ShowsDeclared rebuilt s size (rebuiltText opts rebuilt (some s)) t.newText := by
  obtain ⟨referenceCode, rebuiltCode, oldText, newText, -, hslice, -, htext, rfl⟩ :=
    (result_compare_known_eq_ok_iff hd hs hsize).mp h
  rw [if_pos htruncate] at hslice
  exact showsDeclared_of_slice hknown hslice htext

theorem showsDeclared_rebuiltBlock {lines : LineOptions} {block : ListingBlock}
    (hsize : d.size = some size) (hknown : 0 < s.size)
    (h : block ∈ (rebuiltBlock lines true rebuilt d s).value) :
    ShowsDeclared rebuilt s size
      (render lines rebuilt.addressMap · (rebuilt.virtualAddress s)) block.body := by
  obtain ⟨code, hslice, htext⟩ := except_bind_eq_ok_iff.mp (mem_rebuiltBlock h)
  rw [if_pos rfl, hsize, Option.getD_some] at hslice
  exact showsDeclared_of_slice hknown hslice htext

/-! ## Bytes behind the function -/

variable {image : Image}

/-- Without thunks a listing depends on its image by the bytes that it shows. -/
theorem rebuiltText_of_image (hthunks : opts.resolveThunks = false) (code : List UInt8) :
    rebuiltText opts { rebuilt with image } (some s) code =
      rebuiltText opts rebuilt (some s) code := by
  simp only [rebuiltText, sideText, namesShown, hthunks, Bool.false_eq_true, if_false]
  rfl

theorem result_compare_of_image (hthunks : opts.resolveThunks = false)
    (htruncate : opts.truncateToReference = true)
    (hd : reference.functions.get? name = some d) (hs : rebuilt.symbols.get? name = some s)
    (hsize : d.size = some size) (hle : size ≤ s.size)
    (himage : image.size = rebuilt.image.size)
    (hbytes : image.range s.offset s.size = rebuilt.bytesOf s) :
    (compare opts reference { rebuilt with image } name).result =
      (compare opts reference rebuilt name).result := by
  have hs' : ({ rebuilt with image } : RebuiltSide).symbols.get? name = some s := hs
  rw [result_compare_known opts hd hs hsize, result_compare_known opts hd hs' hsize]
  simp only [htruncate, if_true, slice_congr himage hbytes hle, rebuiltText_of_image hthunks]

theorem value_rebuiltBlock_of_image {lines : LineOptions} (hsize : d.size = some size)
    (hle : size ≤ s.size) (himage : image.size = rebuilt.image.size)
    (hbytes : image.range s.offset s.size = rebuilt.bytesOf s) :
    (rebuiltBlock lines true { rebuilt with image } d s).value =
      (rebuiltBlock lines true rebuilt d s).value := by
  rw [value_rebuiltBlock, value_rebuiltBlock, rebuiltBody, rebuiltBody]
  simp only [hsize, if_true, Option.getD_some, slice_congr himage hbytes hle]
  rfl

end Shown

/-- Truncation shows as many bytes of the rebuilt function as are declared, in a
comparison and in the listing.  If the symbol has as many, no byte behind the function
counts; if not, some of those shown are not its own. -/
theorem truncation_takes_declared_size (opts : ComparisonOptions)
    (htruncate : opts.truncateToReference = true) (reference : ReferenceSide)
    (rebuilt : RebuiltSide) :
    (∀ name d s size t, reference.functions.get? name = some d →
      rebuilt.symbols.get? name = some s → d.size = some size → 0 < s.size →
      (compare opts reference rebuilt name).result = .ok t →
      ShowsDeclared rebuilt s size (rebuiltText opts rebuilt (some s)) t.newText) ∧
    (∀ declared, ∀ block ∈ (rebuiltListing opts.lines true rebuilt declared).value,
      ∃ d ∈ declared, ∃ s, rebuilt.symbols.get? d.name = some s ∧
        ∀ size, d.size = some size → 0 < s.size →
          ShowsDeclared rebuilt s size
            (render opts.lines rebuilt.addressMap · (rebuilt.virtualAddress s))
            block.body) ∧
    ∀ (image : Image) (d : Definition) (s : Symbol) (size : Int), d.size = some size →
      size ≤ s.size → image.size = rebuilt.image.size →
      image.range s.offset s.size = rebuilt.bytesOf s →
      (∀ name, opts.resolveThunks = false → reference.functions.get? name = some d →
        rebuilt.symbols.get? name = some s →
        (compare opts reference { rebuilt with image } name).result =
          (compare opts reference rebuilt name).result) ∧
      (rebuiltBlock opts.lines true { rebuilt with image } d s).value =
        (rebuiltBlock opts.lines true rebuilt d s).value := by
  refine ⟨fun name d s size t hd hs hsize hknown => showsDeclared_compare htruncate hd hs
    hsize hknown, fun declared block hblock => ?_, ?_⟩
  · obtain ⟨d, hd, s, hs, hmem⟩ := mem_rebuiltListing hblock
    exact ⟨d, hd, s, hs, fun size hsize hknown =>
      showsDeclared_rebuiltBlock hsize hknown hmem⟩
  · intro image d s size hsize hle himage hbytes
    exact ⟨fun name hthunks hd hs => result_compare_of_image hthunks htruncate hd hs hsize hle
      himage hbytes, value_rebuiltBlock_of_image hsize hle himage hbytes⟩

/-- The first byte of a function of two bytes is shown, whatever stands behind them. -/
theorem declared_size_shows_first_byte :
    let s : Symbol := ⟨"f", "f.c", 0, 2⟩
    let reference : ReferenceSide :=
      { image := ⟨[0x90]⟩
        functions := Catalog.ofList [("f", ⟨"f", 0, some 1⟩)]
        addressOffset := 0 }
    let rebuilt (behind : UInt8) : RebuiltSide :=
      { image := ⟨[0x90, 0xC3, behind]⟩
        symbols := Catalog.ofList [("f", s)]
        segmentOffset := defaultSegmentOffset }
    let outcome (behind : UInt8) :=
      (compare { truncateToReference := true } reference (rebuilt behind) "f").result
    (∃ t, outcome 0xCC = .ok t) ∧ outcome 0x90 = outcome 0xCC ∧
      (rebuilt 0xCC).image.range s.offset 1 <+: (rebuilt 0xCC).bytesOf s := by
  intro s reference rebuilt outcome
  have hsucceeds : (outcome 0xCC).isOk = true := by decide +kernel +zetaReduce
  obtain ⟨t, ht⟩ := isOk_iff.mp hsucceeds
  obtain ⟨hcompare, -, himage⟩ := truncation_takes_declared_size
    { truncateToReference := true } rfl reference (rebuilt 0xCC)
  have hshown := hcompare "f" ⟨"f", 0, some 1⟩ s 1 t rfl rfl rfl (by decide) ht
  have hbehind := himage (rebuilt 0x90).image ⟨"f", 0, some 1⟩ s 1 rfl (by decide) rfl rfl
  exact ⟨⟨t, ht⟩, hbehind.1 "f" rfl rfl rfl, hshown.own.mpr (by decide)⟩

/-- A function of one byte is shown with the return behind it, which is not its own. -/
theorem declared_size_shows_byte_behind :
    let d : Definition := ⟨"f", 0, some 2⟩
    let s : Symbol := ⟨"f", "f.c", 0, 1⟩
    let reference : ReferenceSide :=
      { image := ⟨[0x90, 0xC3]⟩
        functions := Catalog.ofList [("f", d)]
        addressOffset := 0 }
    let rebuilt : RebuiltSide :=
      { image := ⟨[0x90, 0xC3]⟩
        symbols := Catalog.ofList [("f", s)]
        segmentOffset := defaultSegmentOffset }
    rebuilt.bytesOf s = [0x90] ∧
      (compare { truncateToReference := true } reference rebuilt "f").result.toOption.map
        (·.newText) = some "nop\nret\n" ∧
      (rebuiltListing {} true rebuilt [d]).value.map (·.body) = ["nop\nret\n"] := by
  decide +kernel +zetaReduce

end BinMatch
