import BinMatch.DebugInfo
import BinMatch.Proofs.AddressMap
import BinMatch.Proofs.Thunk
import BinMatch.Symbol.Extraction
import Mathlib.Data.List.TakeWhile

/-!
# From debug records to call labels

A fold over the records of a debug file keeps, under each base name, the symbol of the
last function that has it.  A base name is its own base name, so a call of a symbol that
is alone at its address shows just the name under which the symbol was found.
-/

namespace BinMatch

open X86

/-! ## Base names -/

namespace Symbol

theorem baseName_of_undecorated {name : String}
    (h : ∀ c ∈ name.toList, startsDecoration c = false) : baseName name = name := by
  have hdrop : name.toList.dropWhile startsDecoration = name.toList := by
    cases hchars : name.toList with
    | nil => rfl
    | cons c chars =>
      have hc : startsDecoration c = false := h c (by simp [hchars])
      simp [hc]
  have htake : name.toList.takeWhile (!startsDecoration ·) = name.toList := by
    rw [List.takeWhile_eq_self_iff]
    intro c hc
    simp [h c hc]
  rw [baseName, hdrop, htake, String.ofList_toList]
  exact ite_self name

theorem baseName_baseName (name : String) : baseName (baseName name) = baseName name := by
  by_cases hrun : ((name.toList.dropWhile startsDecoration).takeWhile
      (!startsDecoration ·)).isEmpty = true
  · have hwhole : baseName name = name := if_pos hrun
    rw [hwhole, hwhole]
  · have hcut : baseName name = String.ofList ((name.toList.dropWhile
        startsDecoration).takeWhile (!startsDecoration ·)) := if_neg hrun
    refine baseName_of_undecorated fun c hc => ?_
    rw [hcut, String.toList_ofList] at hc
    simpa using List.mem_takeWhile_imp hc

end Symbol

/-! ## Extraction -/

/-- A record has a name and starts behind the reserved region. -/
def DebugRecord.isKept (r : DebugRecord) : Bool :=
  !(r.name.getD "").isEmpty && decide (Symbol.sectionPreamble ≤ r.start)

theorem value_addRecord (path : String) (found : Catalog String Symbol) (r : DebugRecord) :
    (addRecord path found r).value =
      if r.isKept then found.put (Symbol.ofRecord r).name (Symbol.ofRecord r)
      else found := by
  simp only [addRecord]
  by_cases hname : (r.name.getD "").isEmpty = true
  · have hkept : r.isKept = false := by simp [DebugRecord.isKept, hname]
    rw [if_pos hname, hkept]
    rfl
  rw [if_neg hname]
  by_cases hstart : r.start < Symbol.sectionPreamble
  · have hkept : r.isKept = false := by simp [DebugRecord.isKept, hstart]
    rw [if_pos hstart, hkept]
    rfl
  · have hkept : r.isKept = true := by
      simp [DebugRecord.isKept, hname, Int.not_lt.mp hstart]
    rw [if_neg hstart, hkept]
    split <;> rfl

theorem value_extractSymbols (path : String) (records : List DebugRecord) :
    (extractSymbols path records).value =
      Catalog.ofList ((records.filter (·.isKept)).map fun r =>
        ((Symbol.ofRecord r).name, Symbol.ofRecord r)) := by
  -- A skipped record leaves what is found, so the fold runs over the kept ones alone.
  rw [extractSymbols, Logged.value_foldlM, Catalog.ofList, List.foldl_map, List.foldl_filter]
  simp only [value_addRecord]

/-! ## Functions of a debug file -/

namespace UnitFunction

/-- A function has a name and starts behind the first 0xC00 bytes. -/
def isExtracted (f : UnitFunction) : Bool :=
  f.name.getD "" ≠ "" && 0xC00 ≤ f.address

/-- The name under which a function is found. -/
def key (f : UnitFunction) : String :=
  Symbol.baseName (f.name.getD "")

def symbol (f : UnitFunction) : Symbol :=
  { name := f.key
    sourceFile := if f.sourceFile.getD "" = "" then "UNKNOWN" else f.sourceFile.getD ""
    offset := f.address - 0xC00
    size := max f.codeSize 0 }

theorem getD_nonempty? (text : Option String) : (nonempty? text).getD "" = text.getD "" := by
  cases text with
  | none => rfl
  | some text => by_cases h : text = "" <;> simp [nonempty?, Option.filter, h]

theorem isKept_record (f : UnitFunction) : f.record.isKept = f.isExtracted := by
  have hstart : Symbol.sectionPreamble ≤ f.address ↔ 0xC00 ≤ f.address := Iff.rfl
  rw [Bool.eq_iff_iff]
  simp [DebugRecord.isKept, isExtracted, record, getD_nonempty?, hstart]

/-- A record without an end is one of no bytes. -/
theorem ofRecord_record (f : UnitFunction) : Symbol.ofRecord f.record = f.symbol := by
  have hsize : f.record.stop.getD f.address - f.address = f.codeSize := by
    by_cases h : f.codeSize = 0
    · simp [record, h]
    · simp only [record, if_neg h, Option.getD_some]
      omega
  have hsource : Symbol.sourceFileOf f.record.sourceFile = f.symbol.sourceFile := by
    simp [Symbol.sourceFileOf, record, symbol, getD_nonempty?, unknownSource]
  have hname : Symbol.baseName (f.record.name.getD "") = f.key := by
    rw [record, getD_nonempty?, key]
  rw [Symbol.ofRecord, hname, hsource]
  show Symbol.mk _ _ _ (max (f.record.stop.getD f.address - f.address) 0) = _
  rw [hsize]
  rfl

end UnitFunction

def extractedFunctions (units : List (List UnitFunction)) : List UnitFunction :=
  units.flatten.filter (·.isExtracted)

theorem value_extractSymbols_unitRecords (path : String) (units : List (List UnitFunction)) :
    (extractSymbols path (unitRecords units)).value =
      Catalog.ofList ((extractedFunctions units).map fun f => (f.key, f.symbol)) := by
  rw [value_extractSymbols, unitRecords, List.filter_map, List.map_map, extractedFunctions]
  have hkept : DebugRecord.isKept ∘ UnitFunction.record = UnitFunction.isExtracted :=
    funext UnitFunction.isKept_record
  rw [hkept]
  refine congrArg _ (List.map_congr_left fun f _ => ?_)
  rw [Function.comp_apply, UnitFunction.ofRecord_record]
  rfl

section Found

variable {path : String} {units : List (List UnitFunction)} {key : String} {s : Symbol}

theorem keys_extracted :
    (extractSymbols path (unitRecords units)).value.keys =
      ((extractedFunctions units).map (·.key)).eraseDups := by
  rw [value_extractSymbols_unitRecords, Catalog.keys_ofList, List.map_map]
  rfl

theorem get?_extracted :
    (extractSymbols path (unitRecords units)).value.get? key =
      ((extractedFunctions units).filter (·.key = key)).getLast?.map (·.symbol) := by
  rw [value_extractSymbols_unitRecords, Catalog.get?_ofList, List.filter_map,
    List.getLast?_map, Option.map_map]
  rfl

/-- What is found under a base name is the symbol of a function with that base name. -/
theorem exists_function_of_get?_extracted
    (h : (extractSymbols path (unitRecords units)).value.get? key = some s) :
    ∃ f ∈ units.flatten, f.isExtracted = true ∧ f.key = key ∧ f.symbol = s := by
  rw [get?_extracted] at h
  obtain ⟨f, hlast, hsymbol⟩ := Option.map_eq_some_iff.mp h
  obtain ⟨hf, hkey⟩ := List.mem_filter.mp (List.mem_of_getLast? hlast)
  obtain ⟨hmem, hextracted⟩ := List.mem_filter.mp hf
  exact ⟨f, hmem, hextracted, of_decide_eq_true hkey, hsymbol⟩

end Found

/-! ## Labels of calls -/

theorem RebuiltSide.callLabel_of_alone (side : RebuiltSide) {name : String} {s : Symbol}
    (hs : side.symbols.get? name = some s)
    (halone : ∀ name' s', side.symbols.get? name' = some s' →
      side.virtualAddress s' = side.virtualAddress s → name' = name)
    (opts : ComparisonOptions) (code : List UInt8) (base : Int) :
    Instruction.callLabel (namesShown opts side.image side.segmentOffset side.addressMap
        code base) (side.virtualAddress s) = Symbol.baseName s.name := by
  rw [Instruction.callLabel, get?_namesShown (get?_addressMap_of_alone hs halone)]
  rfl

/-- The symbols of a debug file stand under the base names of its functions, each for the
last function of that name; their addresses are known to the address map, and a call of
a symbol that is alone at its address shows its base name. -/
theorem extracted_functions_label_calls (path : String) (units : List (List UnitFunction))
    (image : Image) (segmentOffset : Int) :
    let found := (extractSymbols path (unitRecords units)).value
    let side : RebuiltSide := ⟨image, found, segmentOffset⟩
    (∀ key, key ∈ found.keys ↔
      ∃ f ∈ units.flatten, f.isExtracted = true ∧ f.key = key) ∧
    found.keys = ((extractedFunctions units).map (·.key)).eraseDups ∧
    (∀ key, found.get? key =
      ((extractedFunctions units).filter (·.key = key)).getLast?.map (·.symbol)) ∧
    (∀ name, Symbol.baseName (Symbol.baseName name) = Symbol.baseName name) ∧
    ∀ key s, found.get? key = some s →
      s.name = key ∧ 0 ≤ s.offset ∧ side.virtualAddress s ∈ side.addressMap.keys ∧
      ((∀ key' s', found.get? key' = some s' →
          side.virtualAddress s' = side.virtualAddress s → key' = key) →
        ∀ opts code base, ∀ insn ∈ decodeAll code base, insn.opcode = callOpcode →
          ∃ target, callTarget? insn = some target ∧
            (target = side.virtualAddress s →
              insn.operands.map (insn.operandText opts.lines (namesShown opts image
                segmentOffset side.addressMap code base)) = [key])) := by
  intro found side
  refine ⟨fun key => ?_, keys_extracted, fun key => get?_extracted,
    Symbol.baseName_baseName, fun key s hs => ?_⟩
  · simp only [found, keys_extracted, List.mem_eraseDups, List.mem_map, extractedFunctions,
      List.mem_filter, and_assoc]
  obtain ⟨f, -, hextracted, rfl, rfl⟩ := exists_function_of_get?_extracted hs
  have hoffset : 0 ≤ f.symbol.offset := by
    simp only [UnitFunction.isExtracted, Bool.and_eq_true, decide_eq_true_eq] at hextracted
    exact Int.sub_nonneg.mpr hextracted.2
  refine ⟨rfl, hoffset, RebuiltSide.mem_keys_addressMap.mpr ⟨f.key, _, hs, rfl⟩, ?_⟩
  intro halone opts code base insn hinsn hcall
  have honce : insn.CallsOnce := callsOnce_of_mem_decodeAll insn hinsn
  obtain ⟨target, htarget⟩ := honce.exists_callTarget? hcall
  refine ⟨target, htarget, fun haddress => ?_⟩
  rw [honce.operandTexts htarget, haddress,
    RebuiltSide.callLabel_of_alone side hs halone opts code base]
  exact congrArg (fun label => [label]) (Symbol.baseName_baseName (f.name.getD ""))

/-- The later of two functions with the base name `f` is called by that name. -/
theorem call_of_replaced_function :
    let units : List (List UnitFunction) :=
      [[⟨some "f(int)", 0xC10, 0, none⟩, ⟨some "", 0xC20, 1, none⟩],
        [⟨some "@f@YAXXZ", 0xC05, 1, some "f.c"⟩, ⟨some "g", 0xBFF, 1, none⟩]]
    let found := (extractSymbols "f.pdb" (unitRecords units)).value
    let side : RebuiltSide := ⟨⟨[]⟩, found, 0x401000⟩
    found.get? "f" = some ⟨"f", "f.c", 5, 1⟩ ∧
      ∃ insn ∈ decodeAll [0xE8, 0x00, 0x00, 0x00, 0x00] 0x401000,
        callTarget? insn = some 0x401005 ∧
        insn.operands.map (insn.operandText {} side.addressMap) = ["f"] := by
  intro units found side
  obtain ⟨-, hkeys, hget, -, hcalls⟩ :=
    extracted_functions_label_calls "f.pdb" units ⟨[]⟩ 0x401000
  have hs : found.get? "f" = some ⟨"f", "f.c", 5, 1⟩ := by
    refine (hget "f").trans ?_
    decide +kernel +zetaReduce
  have hone : ((extractedFunctions units).map (·.key)).eraseDups = ["f"] := by
    decide +kernel +zetaReduce
  have halone : ∀ key' s', found.get? key' = some s' → key' = "f" := by
    intro key' s' hs'
    have hmem : key' ∈ found.keys := by
      by_contra hnone
      rw [Catalog.get?_eq_none_iff.mpr hnone] at hs'
      cases hs'
    exact List.mem_singleton.mp ((hkeys.trans hone) ▸ hmem)
  have hcall : ∃ insn ∈ decodeAll [0xE8, 0x00, 0x00, 0x00, 0x00] 0x401000,
      insn.opcode = callOpcode ∧ callTarget? insn = some 0x401005 := by
    decide +kernel
  obtain ⟨insn, hinsn, hopcode, htarget⟩ := hcall
  obtain ⟨-, -, -, hlabel⟩ := hcalls "f" _ hs
  obtain ⟨target, htarget', htext⟩ :=
    hlabel (fun key' s' hs' _ => halone key' s' hs') {} _ _ insn hinsn hopcode
  refine ⟨hs, insn, hinsn, htarget, htext ?_⟩
  exact Option.some.inj (htarget'.symm.trans htarget)

end BinMatch
