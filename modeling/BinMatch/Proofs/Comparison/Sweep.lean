import BinMatch.Comparison.Sweep
import BinMatch.Proofs.Catalog
import BinMatch.Proofs.Comparison.FirstFailure
import BinMatch.Proofs.Text.Order

/-!
# Comparisons of all functions

A sweep reports on every name that either side knows, once and in a fixed order.  What
it reports on a name is what comparing that name alone gives, so a failure is kept to its
own report; the warnings are those of the names one after the other.
-/

namespace BinMatch

open X86

/-! ## Remarks of a comparison -/

theorem level_addThunk {image : Image} {virtualBase : Int} {names : AddressMap}
    (found : AddressMap) (insn : Instruction) :
    ∀ r ∈ (addThunk image virtualBase names found insn).log, r.level = .debug := by
  rw [addThunk]
  cases callTarget? insn with
  | none => simp
  | some target =>
    simp only
    split
    · simp
    · cases (thunkDestination image virtualBase target).bind names.get? with
      | none => simp
      | some d => simp [LogRecord.level]

theorem quiet_resolveThunks (image : Image) (virtualBase : Int) (names : AddressMap)
    (code : List UInt8) (address : Int) :
    (resolveThunks image virtualBase names code address).Quiet := by
  have hfold : ∀ insns : List Instruction,
      Checked.Quiet (ExceptT.lift (insns.foldlM (addThunk image virtualBase names) names)) :=
    fun insns => Checked.quiet_lift (Logged.forall_mem_log_foldlM level_addThunk names insns)
  exact (hfold _).bind fun _ => (Checked.quiet_ofExcept _).bind fun _ => Checked.quiet_pure _

theorem quiet_listingOf (opts : ComparisonOptions) (image : Image) (virtualBase : Int)
    (names : AddressMap) (code : List UInt8) (address : Int) :
    (listingOf opts image virtualBase names code address).Quiet := by
  rw [listingOf]
  split
  · exact (quiet_resolveThunks _ _ _ _ _).bind fun _ => Checked.quiet_ofExcept _
  · exact (Checked.quiet_pure _).bind fun _ => Checked.quiet_ofExcept _

/-- A comparison warns of nothing itself. -/
theorem quiet_compare (opts : ComparisonOptions) (reference : ReferenceSide)
    (rebuilt : RebuiltSide) (name : String) : (compare opts reference rebuilt name).Quiet := by
  simp only [compare]
  split
  · exact Checked.quiet_throw (.symbolNotFound name)
  · refine (Checked.quiet_ofExcept _).bind fun plan => ?_
    refine (Checked.quiet_ofExcept _).bind fun referenceCode => ?_
    refine (Checked.quiet_ofExcept _).bind fun rebuiltCode => ?_
    -- The rest of the comparison stands in both cases of the reference side.
    cases reference.functions.get? name <;> cases rebuilt.symbols.get? name
    · exact Checked.quiet_pure _
    · exact (quiet_listingOf _ _ _ _ _ _).bind fun _ => Checked.quiet_pure _
    · exact (quiet_listingOf _ _ _ _ _ _).bind fun _ => Checked.quiet_pure _
    · refine (quiet_listingOf _ _ _ _ _ _).bind fun _ => ?_
      exact (quiet_listingOf _ _ _ _ _ _).bind fun _ => Checked.quiet_pure _

/-! ## Failures of a comparison -/

/-- Why the function of a name that is known could not be compared. -/
inductive Uncomparable (name : String) : Error → Prop where
  | requiredSize : Uncomparable name (.requiredSize name)
  | missingSize : Uncomparable name (.missingSize name)
  | outOfBounds (offset size imageSize : Int) :
    Uncomparable name (.outOfBounds name offset size imageSize)
  | undecodable (address : Int) : Uncomparable name (.undecodable address)

section Failure

variable {opts : ComparisonOptions} {reference : ReferenceSide} {rebuilt : RebuiltSide}
  {name : String} {e : Error}

theorem uncomparable_of_plan {truncate : Bool}
    (h : planExtraction truncate name (reference.functions.get? name)
      (rebuilt.symbols.get? name) = .error e) : Uncomparable name e := by
  rw [planExtraction_eq, unlessFailed_eq_error_iff, sizeFailure?] at h
  split at h
  · obtain rfl := Option.some.inj h
    exact .requiredSize
  · split at h
    · obtain rfl := Option.some.inj h
      exact .missingSize
    · cases h

theorem uncomparable_of_carve {image : Image} {offset size : Option Int}
    (h : carve image name offset size = .error e) : Uncomparable name e := by
  cases offset with
  | none => cases h
  | some offset =>
    cases size with
    | none => cases h
    | some size =>
      rw [carve, Image.slice] at h
      split at h
      · cases h
      · obtain rfl := Except.error.inj h
        exact .outOfBounds _ _ _

theorem uncomparable_of_sideText {ι : Type} {image : Image} {virtualBase : Int}
    {names : AddressMap} {address : ι → Int} {known : Option ι} {code : List UInt8}
    (h : sideText opts image virtualBase names address known code = .error e) :
    Uncomparable name e := by
  cases known with
  | none => cases h
  | some x =>
    have hcomplete := render_eq_error_iff.mp h
    rw [Disassembly.complete] at hcomplete
    split at hcomplete
    · cases hcomplete
    · obtain rfl := Except.error.inj hcomplete
      exact .undecodable _

/-- A name that a side knows is compared, or the function itself is at fault. -/
theorem uncomparable_of_compare
    (hknown : name ∈ reference.functions.keys ∨ name ∈ rebuilt.symbols.keys)
    (h : (compare opts reference rebuilt name).result = .error e) : Uncomparable name e := by
  rw [result_compare] at h
  split at h
  · rename_i hunknown
    rw [Bool.and_eq_true, Option.isNone_iff_eq_none, Option.isNone_iff_eq_none,
      Catalog.get?_eq_none_iff, Catalog.get?_eq_none_iff] at hunknown
    exact absurd hknown (not_or.mpr hunknown)
  · simp only [except_bind_eq_error_iff, reduceCtorEq, and_false, exists_false, or_false] at h
    rcases h with
      hplan | ⟨_, -, hold | ⟨_, -, hnew | ⟨_, -, htext | ⟨_, -, htext⟩⟩⟩⟩
    · exact uncomparable_of_plan hplan
    · exact uncomparable_of_carve hold
    · exact uncomparable_of_carve hnew
    · exact uncomparable_of_sideText htext
    · exact uncomparable_of_sideText htext

end Failure

/-! ## Reports -/

section Report

variable (opts : ComparisonOptions) (reference : ReferenceSide) (rebuilt : RebuiltSide)

/-- A report has the result of comparing its function alone, or else the message of the
error, and the places and sizes that the sides know. -/
structure IsReport (r : FunctionReport) : Prop where
  outcome :
    (∃ d, (compare opts reference rebuilt r.name).result = .ok d ∧
      r.result = some d ∧ r.error = none) ∨
    ∃ e, (compare opts reference rebuilt r.name).result = .error e ∧
      Uncomparable r.name e ∧ r.result = none ∧ r.error = some e.message
  referenceAddress :
    r.referenceAddress = (reference.functions.get? r.name).map (·.address)
  referenceSize : r.referenceSize = (reference.functions.get? r.name).bind (·.size)
  rebuiltOffset : r.rebuiltOffset = (rebuilt.symbols.get? r.name).map (·.offset)
  rebuiltSize : r.rebuiltSize = (rebuilt.symbols.get? r.name).map (·.size)
  sourceFile :
    r.sourceFile = ((rebuilt.symbols.get? r.name).map (·.sourceFile)).getD ""

def isWarning (r : LogRecord) : Bool :=
  r.level = .warning

/-- One warning if the debug file does not know the name, and one if comparing fails. -/
def warningsOn (name : String) : List LogRecord :=
  (if rebuilt.symbols.contains name then [] else [.notInDebugFile name]) ++
    match (compare opts reference rebuilt name).result with
    | .ok _ => []
    | .error e => [.failed e]

variable {opts reference rebuilt} {name : String}

theorem value_reportOn :
    (reportOn opts reference rebuilt name).value =
      { name
        sourceFile := ((rebuilt.symbols.get? name).map (·.sourceFile)).getD ""
        rebuiltOffset := (rebuilt.symbols.get? name).map (·.offset)
        rebuiltSize := (rebuilt.symbols.get? name).map (·.size)
        referenceAddress := (reference.functions.get? name).map (·.address)
        referenceSize := (reference.functions.get? name).bind (·.size)
        result := (compare opts reference rebuilt name).result.toOption
        error :=
          match (compare opts reference rebuilt name).result with
          | .ok _ => none
          | .error e => some e.message } := by
  simp only [Checked.result]
  -- The remark on a missing symbol is made before the comparison, so both are split.
  cases hsymbol : rebuilt.symbols.get? name <;>
    cases hresult : (compare opts reference rebuilt name).run.value <;>
    simp [reportOn, hsymbol, hresult, Except.toOption]

theorem isReport_reportOn
    (hknown : name ∈ reference.functions.keys ∨ name ∈ rebuilt.symbols.keys) :
    IsReport opts reference rebuilt (reportOn opts reference rebuilt name).value := by
  rw [value_reportOn]
  refine ⟨?_, rfl, rfl, rfl, rfl, rfl⟩
  cases hresult : (compare opts reference rebuilt name).result with
  | ok d => exact .inl ⟨d, rfl, rfl, rfl⟩
  | error e => exact .inr ⟨e, rfl, uncomparable_of_compare hknown hresult, rfl, rfl⟩

theorem warnings_reportOn :
    (reportOn opts reference rebuilt name).log.filter isWarning =
      warningsOn opts reference rebuilt name := by
  have hquiet : (compare opts reference rebuilt name).run.log.filter isWarning = [] := by
    refine List.filter_eq_nil_iff.mpr fun r hr => ?_
    simp [isWarning, quiet_compare opts reference rebuilt name r hr]
  have hmissing : isWarning (.notInDebugFile name) = true := rfl
  have hfailed : ∀ e, isWarning (.failed e) = true := fun _ => rfl
  rw [warningsOn, Checked.result, Catalog.contains]
  cases hsymbol : rebuilt.symbols.get? name <;>
    cases hresult : (compare opts reference rebuilt name).run.value <;>
    simp [reportOn, hsymbol, hresult, hquiet, hmissing, hfailed]

end Report

/-! ## Names -/

section Names

variable (reference : ReferenceSide) (rebuilt : RebuiltSide)

def undeclaredNames : List String :=
  (rebuilt.symbols.keys.filter (!reference.functions.contains ·)).mergeSort fun a b => a ≤ b

variable {reference rebuilt}

theorem mem_undeclaredNames {name : String} :
    name ∈ undeclaredNames reference rebuilt ↔
      name ∈ rebuilt.symbols.keys ∧ name ∉ reference.functions.keys := by
  rw [undeclaredNames, List.mem_mergeSort, List.mem_filter, Bool.not_eq_true',
    ← Bool.not_eq_true, Catalog.contains_iff]

theorem pairwise_undeclaredNames : (undeclaredNames reference rebuilt).Pairwise (· < ·) :=
  Text.pairwise_lt_mergeSort (rebuilt.symbols.nodup.filter _)

theorem sweepNames_eq : sweepNames reference rebuilt =
    reference.functions.keys ++ undeclaredNames reference rebuilt := rfl

theorem nodup_sweepNames : (sweepNames reference rebuilt).Nodup := by
  have hundeclared : (undeclaredNames reference rebuilt).Nodup :=
    Text.nodup_of_pairwise_lt pairwise_undeclaredNames
  refine List.nodup_append.mpr ⟨reference.functions.nodup, hundeclared, ?_⟩
  rintro name hdeclared _ hname rfl
  exact (mem_undeclaredNames.mp hname).2 hdeclared

theorem mem_sweepNames {name : String} :
    name ∈ sweepNames reference rebuilt ↔
      name ∈ reference.functions.keys ∨ name ∈ rebuilt.symbols.keys := by
  rw [sweepNames_eq, List.mem_append, mem_undeclaredNames]
  by_cases h : name ∈ reference.functions.keys <;> simp [h]

theorem map_name_compareAll {opts : ComparisonOptions} :
    (compareAll opts reference rebuilt).value.map (·.name) = sweepNames reference rebuilt := by
  rw [compareAll, Logged.value_mapM, List.map_map]
  refine (List.map_congr_left fun name _ => ?_).trans (List.map_id _)
  exact congrArg FunctionReport.name value_reportOn

end Names

/-- A sweep reports once on each name that a side knows, the declared names in their order
and then the others sorted.  Every report is what comparing its name alone gives, and the
warnings are made name by name. -/
theorem compareAll_reports_every_name (opts : ComparisonOptions) (reference : ReferenceSide)
    (rebuilt : RebuiltSide) :
    let sweep := compareAll opts reference rebuilt
    let names := sweep.value.map (·.name)
    (names.Nodup ∧
      ∀ name, name ∈ names ↔
        name ∈ reference.functions.keys ∨ name ∈ rebuilt.symbols.keys) ∧
    (∃ others, names = reference.functions.keys ++ others ∧ others.Pairwise (· < ·) ∧
      ∀ name, name ∈ others ↔
        name ∈ rebuilt.symbols.keys ∧ name ∉ reference.functions.keys) ∧
    (∀ r ∈ sweep.value, IsReport opts reference rebuilt r) ∧
    sweep.log.filter isWarning = names.flatMap (warningsOn opts reference rebuilt) := by
  intro sweep names
  have hnames : names = sweepNames reference rebuilt := map_name_compareAll
  have hreports : sweep.value = (sweepNames reference rebuilt).map fun name =>
      (reportOn opts reference rebuilt name).value := Logged.value_mapM _ _
  have hlog : sweep.log = (sweepNames reference rebuilt).flatMap fun name =>
      (reportOn opts reference rebuilt name).log := Logged.log_mapM _ _
  rw [hnames, hreports, hlog]
  refine ⟨⟨nodup_sweepNames, fun _ => mem_sweepNames⟩,
    ⟨undeclaredNames reference rebuilt, rfl, pairwise_undeclaredNames,
      fun _ => mem_undeclaredNames⟩, ?_, ?_⟩
  · rw [List.forall_mem_map]
    exact fun name hname => isReport_reportOn (mem_sweepNames.mp hname)
  · rw [List.filter_flatMap]
    simp only [warnings_reportOn]

end BinMatch
