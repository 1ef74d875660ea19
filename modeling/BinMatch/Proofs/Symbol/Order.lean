import BinMatch.Proofs.Comparison.Sweep
import BinMatch.Proofs.Listing.Block
import BinMatch.Proofs.Symbol.Extraction

/-!
# Order of symbols

Symbols are put into the address map in the order of their names, so where several of them
share an address the greatest name is kept, in whatever order the symbols were found.  The
order of the debug records counts only among those whose symbols have one name.
-/

namespace BinMatch

open X86 (decodeAll callOpcode)

/-! ## Sides that know the same symbols -/

/-- The two sides have one file and find the same symbols in it. -/
structure RebuiltSide.Alike (side side' : RebuiltSide) : Prop where
  image : side.image = side'.image
  segmentOffset : side.segmentOffset = side'.segmentOffset
  symbols : ∀ name, side.symbols.get? name = side'.symbols.get? name

namespace RebuiltSide.Alike

variable {side side' : RebuiltSide} (h : side.Alike side')
include h

theorem addressMap_eq : side.addressMap = side'.addressMap := by
  rw [RebuiltSide.addressMap, RebuiltSide.addressMap, h.segmentOffset]
  exact ofSymbols_eq_of_perm (Catalog.perm_entries_iff.mpr h.symbols)

theorem virtualAddress_eq : side.virtualAddress = side'.virtualAddress := by
  funext s
  rw [RebuiltSide.virtualAddress, RebuiltSide.virtualAddress, h.segmentOffset]

theorem rebuiltText_eq (opts : ComparisonOptions) (name : String) :
    rebuiltText opts side (side.symbols.get? name) =
      rebuiltText opts side' (side'.symbols.get? name) := by
  simp only [rebuiltText, h.image, h.segmentOffset, h.addressMap_eq, h.virtualAddress_eq,
    h.symbols]

theorem compare_eq (opts : ComparisonOptions) (reference : ReferenceSide) (name : String) :
    compare opts reference side name = compare opts reference side' name := by
  simp only [compare, h.image, h.segmentOffset, h.addressMap_eq, h.virtualAddress_eq,
    h.symbols]

theorem sweepNames_eq (reference : ReferenceSide) :
    sweepNames reference side = sweepNames reference side' := by
  have hkeys : side.symbols.keys.Perm side'.symbols.keys :=
    List.Perm.map _ (Catalog.perm_entries_iff.mpr h.symbols)
  rw [sweepNames, sweepNames]
  exact congrArg _ (Text.mergeSort_eq_of_perm (side.symbols.nodup.filter _) (hkeys.filter _))

theorem compareAll_eq (opts : ComparisonOptions) (reference : ReferenceSide) :
    compareAll opts reference side = compareAll opts reference side' := by
  have hreport : reportOn opts reference side = reportOn opts reference side' := by
    funext name
    simp only [reportOn, h.compare_eq, h.symbols]
  rw [compareAll, compareAll, h.sweepNames_eq, hreport]

theorem value_rebuiltListing_eq (opts : X86.LineOptions) (truncate : Bool)
    (declared : List Definition) :
    (rebuiltListing opts truncate side declared).value =
      (rebuiltListing opts truncate side' declared).value := by
  have hblock : rebuiltBlock? opts truncate side = rebuiltBlock? opts truncate side' := by
    funext d
    simp only [rebuiltBlock?, rebuiltBody, h.image, h.addressMap_eq, h.virtualAddress_eq, h.symbols]
  rw [value_rebuiltListing, value_rebuiltListing, hblock]

end RebuiltSide.Alike

/-! ## Order of records -/

/-- Under every name the same records are kept, and in the same order. -/
def SameUnderNames (records records' : List DebugRecord) : Prop :=
  ∀ name, (records.filter (·.isKept)).filter (fun r => (Symbol.ofRecord r).name = name) =
    (records'.filter (·.isKept)).filter fun r => (Symbol.ofRecord r).name = name

/-- No two records that are kept have symbols of one name. -/
def DistinctNames (records : List DebugRecord) : Prop :=
  (records.filter (·.isKept)).Pairwise fun r r' =>
    (Symbol.ofRecord r).name ≠ (Symbol.ofRecord r').name

section Records

variable {records records' : List DebugRecord}

theorem DistinctNames.of_perm (h : DistinctNames records) (hperm : records.Perm records') :
    DistinctNames records' :=
  (hperm.filter _).pairwise h Ne.symm

/-- Under a name there is at most one record, so there is nothing to put in order. -/
theorem DistinctNames.sameUnderNames (h : DistinctNames records)
    (hperm : records.Perm records') : SameUnderNames records records' := by
  intro name
  have h' : DistinctNames records' := h.of_perm hperm
  refine List.Perm.eq_of_pairwise (fun r r' hr hr' hne _ => ?_) (h.filter _) (h'.filter _)
    ((hperm.filter _).filter _)
  have hname := of_decide_eq_true (List.mem_filter.mp hr).2
  have hname' := of_decide_eq_true (List.mem_filter.mp hr').2
  exact absurd (hname.trans hname'.symm) hne

/-- The file in which the records were found is named in remarks only. -/
theorem SameUnderNames.alike (h : SameUnderNames records records') (path path' : String)
    (image : Image) (segmentOffset : Int) :
    RebuiltSide.Alike ⟨image, (extractSymbols path records).value, segmentOffset⟩
      ⟨image, (extractSymbols path' records').value, segmentOffset⟩ := by
  refine ⟨rfl, rfl, fun name => ?_⟩
  simp only [value_extractSymbols, Catalog.get?_ofList, List.filter_map]
  exact congrArg
    (fun kept : List DebugRecord =>
      ((kept.map fun r => ((Symbol.ofRecord r).name, Symbol.ofRecord r)).getLast?).map (·.2))
    (h name)

end Records

/-- The address map has the addresses of the symbols and holds at each the symbol with the
greatest name, so it does not tell in which order the symbols were found.  Nor does anything
that is shown of the rebuilt binary, if the records under each name keep their order, as
records under different names do in every order. -/
theorem symbol_order_is_not_shown (segmentOffset : Int) :
    (∀ symbols : Catalog String Symbol,
      let names := AddressMap.ofSymbols segmentOffset symbols
      (∀ address, address ∈ names.keys ↔
        ∃ name s, symbols.get? name = some s ∧ s.offset + segmentOffset = address) ∧
      (∀ address d, names.get? address = some d ↔
        ∃ name s, symbols.get? name = some s ∧ s.offset + segmentOffset = address ∧
          d = s.toDefinition segmentOffset ∧
          ∀ name' s', symbols.get? name' = some s' → s'.offset + segmentOffset = address →
            name' ≤ name) ∧
      ∀ symbols', symbols.entries.Perm symbols'.entries →
        AddressMap.ofSymbols segmentOffset symbols' = names) ∧
    (∀ records records', DistinctNames records → records.Perm records' →
      SameUnderNames records records') ∧
    ∀ records records', SameUnderNames records records' → ∀ path path' image,
      let side : RebuiltSide :=
        ⟨image, (extractSymbols path records).value, segmentOffset⟩
      let side' : RebuiltSide :=
        ⟨image, (extractSymbols path' records').value, segmentOffset⟩
      (∀ opts name code, rebuiltText opts side (side.symbols.get? name) code =
        rebuiltText opts side' (side'.symbols.get? name) code) ∧
      (∀ opts reference name, compare opts reference side name =
        compare opts reference side' name) ∧
      (∀ opts reference, compareAll opts reference side =
        compareAll opts reference side') ∧
      ∀ opts truncate declared, (rebuiltListing opts truncate side declared).value =
        (rebuiltListing opts truncate side' declared).value := by
  refine ⟨fun symbols => ⟨fun address => mem_keys_ofSymbols, fun address d =>
      get?_ofSymbols_eq_some_iff, fun symbols' h => (ofSymbols_eq_of_perm h).symm⟩,
    fun records records' h => h.sameUnderNames, ?_⟩
  intro records records' h path path' image side side'
  have halike : side.Alike side' := h.alike path path' image segmentOffset
  exact ⟨fun opts name code => congrFun (halike.rebuiltText_eq opts name) code, halike.compare_eq,
    halike.compareAll_eq, halike.value_rebuiltListing_eq⟩

/-- Two functions of the same code are called by the name that is greater, whichever of
them was found first. -/
theorem call_of_folded_functions :
    let records : List DebugRecord :=
      [⟨some "main", 0xC00, some 0xC05, none⟩, ⟨some "get_x(int)", 0xC05, some 0xC06, none⟩,
        ⟨some "get_y(int)", 0xC05, some 0xC06, none⟩]
    let side : RebuiltSide :=
      ⟨⟨[]⟩, (extractSymbols "a.pdb" records).value, 0x401000⟩
    let side' : RebuiltSide :=
      ⟨⟨[]⟩, (extractSymbols "a.pdb" records.reverse).value, 0x401000⟩
    let call : List UInt8 := [0xE8, 0x00, 0x00, 0x00, 0x00]
    side.symbols.keys = ["main", "get_x", "get_y"] ∧
      side'.symbols.keys = ["get_y", "get_x", "main"] ∧
      rebuiltText {} side (side.symbols.get? "main") call = .ok "call get_y\n" ∧
      rebuiltText {} side' (side'.symbols.get? "main") call = .ok "call get_y\n" := by
  intro records side side' call
  have hdistinct : DistinctNames records := by
    unfold DistinctNames
    decide +kernel +zetaReduce
  have hsame : SameUnderNames records records.reverse :=
    (symbol_order_is_not_shown 0x401000).2.1 _ _ hdistinct (List.reverse_perm records).symm
  have hentries : side.symbols.entries = [("main", ⟨"main", unknownSource, 0, 5⟩),
      ("get_x", ⟨"get_x", unknownSource, 5, 1⟩),
      ("get_y", ⟨"get_y", unknownSource, 5, 1⟩)] := by
    decide +kernel +zetaReduce
  have hname : side.addressMap.get? 0x401005 = some ⟨"get_y", 0x401005, some 1⟩ := by
    refine (((symbol_order_is_not_shown 0x401000).1 side.symbols).2.1 _ _).mpr
      ⟨"get_y", ⟨"get_y", unknownSource, 5, 1⟩, ?_⟩
    simp only [Catalog.get?_eq_some_iff, hentries]
    refine ⟨by simp, by decide, by decide, fun name s hs haddress => ?_⟩
    simp only [List.mem_cons, Prod.mk.injEq, List.not_mem_nil, or_false] at hs
    rcases hs with ⟨rfl, rfl⟩ | ⟨rfl, rfl⟩ | ⟨rfl, rfl⟩
    · exact absurd haddress (by decide)
    · decide
    · decide
  have htext : rebuiltText {} side (side.symbols.get? "main") call = .ok "call get_y\n" := by
    have hmain : side.symbols.get? "main" = some ⟨"main", unknownSource, 0, 5⟩ := by
      rw [Catalog.get?_eq_some_iff, hentries]
      simp
    let insn : X86.Instruction :=
      ⟨0x401000, 5, "call", callOpcode, 0, [.immediate 4 0 .distance]⟩
    have hinsns : decodeAll call 0x401000 = [insn] := by decide +kernel
    have hoperands : insn.operands.map (insn.operandText {} side.addressMap) =
        [X86.Instruction.callLabel side.addressMap 0x401005] :=
      X86.Instruction.CallsOnce.operandTexts (fun _ => ⟨0, rfl⟩) (by decide)
    have hline : insn.line {} side.addressMap = "call get_y" := by
      rw [X86.Instruction.line, hoperands, X86.Instruction.callLabel, hname]
      decide +kernel
    rw [hmain]
    refine X86.render_eq_ok_iff.mpr
      ⟨decodeAll call 0x401000, X86.complete_eq_ok_iff.mpr ⟨rfl, by decide +kernel⟩, ?_⟩
    show _ = Text.Line.terminated
      ((decodeAll call 0x401000).map (·.line {} side.addressMap))
    rw [hinsns, List.map_singleton, hline]
    rfl
  have htexts := ((symbol_order_is_not_shown 0x401000).2.2 _ _ hsame "a.pdb" "a.pdb" ⟨[]⟩).1
  exact ⟨by decide +kernel +zetaReduce, by decide +kernel +zetaReduce, htext,
    (htexts {} "main" _).symm.trans htext⟩

end BinMatch
