import BinMatch.CommandLine.Execution
import BinMatch.Proofs.Comparison.FirstFailure
import BinMatch.Proofs.Listing.Block

/-!
# Listings and single comparisons

A full listing shows a declared function as its comparison does, unless thunks are
resolved.  The two settle sizes in different ways, which agree where the comparison
succeeds and the declaration met in the listing has the size that its name stands for.
-/

namespace BinMatch

open X86

/-! ## Bodies -/

section Body

variable {opts : ComparisonOptions} {reference : ReferenceSide} {rebuilt : RebuiltSide}
  {d : Definition} {s : Symbol} {size : Int} {t : Diff.TextDiff}

/-- Without thunks a side that knows the function shows it by its own map. -/
theorem body_of_side {ι : Type} {image : Image} {virtualBase : Int} {names : AddressMap}
    {name text : String} {offset address : ι → Int} {x : ι} {planned : Option Int}
    {code : List UInt8} (hthunks : opts.resolveThunks = false) (hplan : planned = some size)
    (hcarved : carve image name ((some x).map offset) planned = .ok code)
    (hrendered : sideText opts image virtualBase names address (some x) code = .ok text) :
    (do
      let code ← image.slice name (offset x) size
      render opts.lines names code (address x)) = .ok text := by
  rw [hplan] at hcarved
  refine except_bind_eq_ok_iff.mpr ⟨code, hcarved, ?_⟩
  simpa only [sideText, namesShown, hthunks, Bool.false_eq_true, if_false] using hrendered

theorem referenceBody_of_compare (hthunks : opts.resolveThunks = false)
    (hd : reference.functions.get? d.name = some d) (hsize : d.size = some size)
    (h : (compare opts reference rebuilt d.name).result = .ok t) :
    referenceBody opts.lines reference d size = .ok t.oldText := by
  obtain ⟨plan, code, _, oldText, newText, hcompared, rfl⟩ := result_compare_eq_ok_iff.mp h
  have hplan : plan.referenceSize = some size := by
    obtain ⟨-, rfl⟩ := unlessFailed_eq_ok_iff.mp
      ((planExtraction_eq _).symm.trans hcompared.planned)
    simp [hd, hsize]
  have hcarved := hcompared.carvedReference
  have hrendered := hcompared.renderedReference
  rw [hd] at hcarved hrendered
  exact body_of_side hthunks hplan hcarved hrendered

/-- The declaration `d` may be another one than the comparison takes for its name. -/
theorem rebuiltBody_of_compare (hthunks : opts.resolveThunks = false)
    (hs : rebuilt.symbols.get? d.name = some s)
    (hsize : opts.truncateToReference = true →
      (reference.functions.get? d.name).bind (·.size) = d.size)
    (h : (compare opts reference rebuilt d.name).result = .ok t) :
    rebuiltBody opts.lines opts.truncateToReference rebuilt d s = .ok t.newText := by
  obtain ⟨plan, _, code, oldText, newText, hcompared, rfl⟩ := result_compare_eq_ok_iff.mp h
  have hplan : plan.rebuiltSize =
      some (if opts.truncateToReference then d.size.getD s.size else s.size) := by
    obtain ⟨hsized, rfl⟩ := unlessFailed_eq_ok_iff.mp
      ((planExtraction_eq _).symm.trans hcompared.planned)
    cases htruncate : opts.truncateToReference with
    | false => simp [hs]
    | true =>
      simp only [sizeFailure?, htruncate, hsize htruncate] at hsized ⊢
      cases hdeclared : d.size with
      | none => simp [hdeclared] at hsized
      | some size => simp [hs]
  have hcarved := hcompared.carvedRebuilt
  have hrendered := hcompared.renderedRebuilt
  rw [hs] at hcarved hrendered
  exact body_of_side hthunks hplan hcarved hrendered

end Body

/-! ## Listings -/

theorem Config.get?_byName (config : Config) (name : String) :
    config.byName.get? name = (config.functions.filter (·.name = name)).getLast? := by
  rw [byName, Catalog.get?_ofList, List.filter_map, List.getLast?_map, Option.map_map]
  exact Option.map_id'

theorem Config.find_eq_ok_iff (config : Config) {name : String} {d : Definition} :
    config.find name = .ok d ↔ config.byName.get? name = some d := by
  rw [find]
  cases config.byName.get? name <;> simp

/-- The listings of a configuration hold the head and the body of each declaration that can
be shown, in order.  A function that is declared once is shown in them as its comparison
shows it. -/
theorem listings_agree_with_compare (config : Config) (image : Image) (rebuilt : RebuiltSide)
    (opts : ComparisonOptions) (hthunks : opts.resolveThunks = false) :
    let reference := CommandLine.referenceSide config image
    let old := (referenceListing opts.lines reference config.functions).value
    let new := (rebuiltListing opts.lines opts.truncateToReference rebuilt
      config.functions).value
    Lists old config.functions (referenceShown? opts.lines reference) ∧
    Lists new (firstDeclarations config.functions)
      (rebuiltShown? opts.lines opts.truncateToReference rebuilt) ∧
    ∀ name d t, config.functions.filter (·.name = name) = [d] →
      (compare opts reference rebuilt name).result = .ok t →
      (∀ size, d.size = some size →
        old.filter (·.name = name) = [⟨name, size, t.oldText⟩]) ∧
      ∀ s, rebuilt.symbols.get? name = some s →
        new.filter (·.name = name) = [⟨name, s.size, t.newText⟩] := by
  intro reference old new
  have hold : old = config.functions.filterMap (referenceBlock? opts.lines reference) :=
    value_referenceListing _ _ _
  have hnew : new = (firstDeclarations config.functions).filterMap
      (rebuiltBlock? opts.lines opts.truncateToReference rebuilt) :=
    value_rebuiltListing _ _ _ _
  refine ⟨?_, ?_, ?_⟩
  · rw [hold, funext (referenceBlock?_eq_map opts.lines reference)]
    exact lists_filterMap _ _
  · rw [hnew, funext (rebuiltBlock?_eq_map opts.lines opts.truncateToReference rebuilt)]
    exact lists_filterMap _ _
  intro name d t honce hcompare
  obtain ⟨-, hname⟩ := List.mem_filter.mp (honce ▸ List.mem_singleton_self d)
  obtain rfl := of_decide_eq_true hname
  -- The only declaration of a name is both the first and the last one.
  have hd : reference.functions.get? d.name = some d :=
    (config.get?_byName d.name).trans (by rw [honce]; rfl)
  have hfirst : config.functions.find? (·.name = d.name) = some d := by
    rw [← List.head?_filter, honce]
    rfl
  constructor
  · intro size hsize
    have hbody := referenceBody_of_compare hthunks hd hsize hcompare
    have hshown : old.filter (·.name = d.name) = _ := filter_referenceListing _ _ _ _
    rw [hshown, honce, List.filterMap_cons, referenceBlock?, hsize, Option.bind_some, hbody]
    rfl
  · intro s hs
    have hbody := rebuiltBody_of_compare hthunks hs (fun _ => by rw [hd]; rfl) hcompare
    have hshown : new.filter (·.name = d.name) = _ := filter_rebuiltListing _ _ _ _ _
    rw [hshown, hfirst, Option.bind_some, rebuiltBlock?, hs, Option.bind_some, hbody]
    rfl

/-- A declaration without a size leaves the others of its configuration alone. -/
theorem listings_show_compared_function :
    let config : Config := ⟨0, [⟨"g", 2, none⟩, ⟨"f", 0, some 2⟩]⟩
    let image : Image := ⟨[0x90, 0xC3, 0xC3]⟩
    let rebuilt : RebuiltSide :=
      { image
        symbols := Catalog.ofList [("f", ⟨"f", "f.c", 0, 2⟩)]
        segmentOffset := defaultSegmentOffset }
    let reference := CommandLine.referenceSide config image
    ∃ t, (compare {} reference rebuilt "f").result = .ok t ∧
      (referenceListing {} reference config.functions).value.filter (·.name = "f") =
        [⟨"f", 2, t.oldText⟩] ∧
      (rebuiltListing {} false rebuilt config.functions).value.filter (·.name = "f") =
        [⟨"f", 2, t.newText⟩] := by
  intro config image rebuilt reference
  have hsucceeds : (compare {} reference rebuilt "f").result.isOk = true := by
    decide +kernel +zetaReduce
  obtain ⟨t, ht⟩ := isOk_iff.mp hsucceeds
  obtain ⟨-, -, hagree⟩ := listings_agree_with_compare config image rebuilt {} rfl
  have hshown := hagree "f" ⟨"f", 0, some 2⟩ t rfl ht
  exact ⟨t, ht, hshown.1 2 rfl, hshown.2 ⟨"f", "f.c", 0, 2⟩ rfl⟩

end BinMatch
