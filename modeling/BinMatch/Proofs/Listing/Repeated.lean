import BinMatch.Proofs.Listing.Agreement
import BinMatch.Proofs.Text.Order

/-!
# Repeated names in the rebuilt listing

Of several declarations of one name the last one counts in a comparison, but the first one
is met first in the listing and takes the symbol away.  The others are then said not to be
in the debug file, and under truncation the size of the first one is taken.
-/

namespace BinMatch

open X86

/-! ## Remarks of the listing -/

/-- The declarations that are said not to be in the debug file. -/
def missingNames (log : List LogRecord) : List String :=
  log.filterMap fun
    | .notInDebugFile name => some name
    | _ => none

/-- The symbols that are said not to be in the configuration. -/
def undeclaredSymbols (log : List LogRecord) : List String :=
  log.filterMap fun
    | .notInConfig name => some name
    | _ => none

section Remarks

variable (opts : LineOptions) (truncate : Bool) (side : RebuiltSide)

theorem missingNames_append (log log' : List LogRecord) :
    missingNames (log ++ log') = missingNames log ++ missingNames log' :=
  List.filterMap_append

theorem undeclaredSymbols_append (log log' : List LogRecord) :
    undeclaredSymbols (log ++ log') = undeclaredSymbols log ++ undeclaredSymbols log' :=
  List.filterMap_append

theorem log_blockOrRemark (name : String) (shownSize : Int) (body : Except Error String) :
    missingNames (blockOrRemark name shownSize body).log = [] ∧
      undeclaredSymbols (blockOrRemark name shownSize body).log = [] := by
  cases body <;> exact ⟨rfl, rfl⟩

/-- The remarks on one block are about sizes and failures. -/
theorem log_rebuiltBlock (d : Definition) (s : Symbol) :
    missingNames (rebuiltBlock opts truncate side d s).log = [] ∧
      undeclaredSymbols (rebuiltBlock opts truncate side d s).log = [] := by
  rw [rebuiltBlock]
  split
  · exact log_blockOrRemark d.name s.size _
  · exact log_blockOrRemark d.name s.size _

/-- The first declaration of a name takes its symbol away; each other one is remarked on. -/
theorem count_missingNames (remaining : Catalog String Symbol) (declared : List Definition)
    (name : String) :
    (missingNames (rebuiltBlocks opts truncate side remaining declared).log).count name =
      declared.countP (·.name = name) - if remaining.contains name then 1 else 0 := by
  -- A later declaration meets fewer symbols, so what remains stays general.
  induction declared generalizing remaining with
  | nil => simp [rebuiltBlocks, missingNames]
  | cons d declared ih =>
    rw [rebuiltBlocks, List.countP_cons]
    cases hd : remaining.get? d.name with
    | none =>
      have hfirst : missingNames [.notInDebugFile d.name] = [d.name] := rfl
      have habsent : remaining.contains d.name = false := by rw [Catalog.contains, hd]; rfl
      simp only [Logged.log_bind, Logged.log_tell, missingNames_append, hfirst,
        List.count_append, ih, List.count_singleton]
      by_cases h : d.name = name
      · subst h
        simp [habsent, Nat.add_comm]
      · simp [h]
    | some s =>
      have hpresent : remaining.contains d.name = true := by rw [Catalog.contains, hd]; rfl
      simp only [Logged.log_bind, Logged.log_pure, List.append_nil, missingNames_append,
        (log_rebuiltBlock opts truncate side d s).1, ih, List.nil_append,
        Catalog.contains_erase]
      by_cases h : d.name = name
      · subst h
        simp [hpresent]
      · simp [h, Ne.symm h]

theorem undeclaredSymbols_rebuiltBlocks (remaining : Catalog String Symbol)
    (declared : List Definition) :
    undeclaredSymbols (rebuiltBlocks opts truncate side remaining declared).log = [] := by
  induction declared generalizing remaining with
  | nil => rfl
  | cons d declared ih =>
    rw [rebuiltBlocks]
    cases remaining.get? d.name with
    | none => exact ih remaining
    | some s =>
      simp only [Logged.log_bind, Logged.log_pure, undeclaredSymbols_append,
        (log_rebuiltBlock opts truncate side d s).2, ih, List.nil_append]
      rfl

/-- The symbols left over are those that no declaration names. -/
theorem keys_left_rebuiltBlocks (remaining : Catalog String Symbol)
    (declared : List Definition) :
    (rebuiltBlocks opts truncate side remaining declared).value.2.keys =
      remaining.keys.filter (· ∉ declared.map (·.name)) := by
  induction declared generalizing remaining with
  | nil => simp [rebuiltBlocks]
  | cons d declared ih =>
    rw [rebuiltBlocks]
    cases hd : remaining.get? d.name with
    | none =>
      simp only [Logged.value_bind, ih]
      refine List.filter_congr fun name hname => ?_
      have hne : name ≠ d.name := fun heq =>
        Catalog.get?_eq_none_iff.mp hd (heq ▸ hname)
      simp [hne]
    | some s =>
      simp only [Logged.value_bind, Logged.value_pure, ih, Catalog.keys_erase,
        List.filter_filter]
      refine List.filter_congr fun name _ => ?_
      by_cases h : name = d.name <;> simp [h]

theorem log_rebuiltListing (declared : List Definition) :
    (rebuiltListing opts truncate side declared).log =
      (rebuiltBlocks opts truncate side side.symbols declared).log ++
        ((side.symbols.keys.filter (· ∉ declared.map (·.name))).mergeSort
          fun a b => a ≤ b).map .notInConfig := by
  rw [rebuiltListing, ← keys_left_rebuiltBlocks opts truncate side]
  simp only [Logged.log_bind, Logged.log_pure, List.append_nil, Logged.log_forM,
    Logged.log_tell, ← List.map_eq_flatMap]

theorem undeclaredSymbols_rebuiltListing (declared : List Definition) :
    undeclaredSymbols (rebuiltListing opts truncate side declared).log =
      (side.symbols.keys.filter (· ∉ declared.map (·.name))).mergeSort fun a b => a ≤ b := by
  rw [log_rebuiltListing, undeclaredSymbols_append, undeclaredSymbols_rebuiltBlocks,
    List.nil_append, undeclaredSymbols, List.filterMap_map]
  exact List.filterMap_some

theorem count_missingNames_rebuiltListing (declared : List Definition) (name : String) :
    (missingNames (rebuiltListing opts truncate side declared).log).count name =
      declared.countP (·.name = name) - if side.symbols.contains name then 1 else 0 := by
  rw [log_rebuiltListing, missingNames_append, ← count_missingNames opts truncate side,
    List.count_append]
  simp [missingNames]

end Remarks

/-! ## First and last declarations -/

/-- Each declaration of a name but the first is said not to be in the debug file, and so is
the first if there is no symbol.  The first one is listed; its body is the one of the
comparison where it has the size of the declaration that its name stands for. -/
theorem rebuiltListing_takes_first_declaration (config : Config) (image : Image)
    (rebuilt : RebuiltSide) (opts : ComparisonOptions) :
    let listing := rebuiltListing opts.lines opts.truncateToReference rebuilt config.functions
    (∀ name, (missingNames listing.log).count name =
      config.functions.countP (·.name = name) -
        if rebuilt.symbols.contains name then 1 else 0) ∧
    (∀ name ∈ rebuilt.symbols.keys, name ∈ missingNames listing.log ↔
      1 < config.functions.countP (·.name = name)) ∧
    ((undeclaredSymbols listing.log).Pairwise (· < ·) ∧
      ∀ name, name ∈ undeclaredSymbols listing.log ↔
        name ∈ rebuilt.symbols.keys ∧ name ∉ config.functions.map (·.name)) ∧
    ∀ d s, config.functions.find? (·.name = d.name) = some d →
      rebuilt.symbols.get? d.name = some s →
      listing.value.filter (·.name = d.name) =
        (blockOf? d.name s.size
          (rebuiltBody opts.lines opts.truncateToReference rebuilt d s)).toList ∧
      ∀ e t, opts.resolveThunks = false → config.find d.name = .ok e →
        (opts.truncateToReference = true → e.size = d.size) →
        (compare opts (CommandLine.referenceSide config image) rebuilt d.name).result =
          .ok t →
        listing.value.filter (·.name = d.name) = [⟨d.name, s.size, t.newText⟩] := by
  intro listing
  have hcount : ∀ name, (missingNames listing.log).count name =
      config.functions.countP (·.name = name) -
        if rebuilt.symbols.contains name then 1 else 0 :=
    count_missingNames_rebuiltListing _ _ _ _
  have hundeclared : undeclaredSymbols listing.log = _ :=
    undeclaredSymbols_rebuiltListing _ _ _ _
  refine ⟨hcount, fun name hname => ?_, ⟨?_, fun name => ?_⟩, fun d s hfirst hs => ?_⟩
  · rw [← List.count_pos_iff, hcount, if_pos (Catalog.contains_iff.mpr hname)]
    exact Nat.sub_pos_iff_lt
  · rw [hundeclared]
    exact Text.pairwise_lt_mergeSort (rebuilt.symbols.nodup.filter _)
  · rw [hundeclared, List.mem_mergeSort, List.mem_filter, decide_eq_true_eq]
  · have hlisted : listing.value.filter (·.name = d.name) =
        (blockOf? d.name s.size
          (rebuiltBody opts.lines opts.truncateToReference rebuilt d s)).toList := by
      have hshown : listing.value.filter (·.name = d.name) = _ :=
        filter_rebuiltListing _ _ _ _ _
      rw [hshown, hfirst, Option.bind_some, rebuiltBlock?, hs, Option.bind_some]
    refine ⟨hlisted, fun e t hthunks he hsize hcompare => ?_⟩
    have he : config.byName.get? d.name = some e := config.find_eq_ok_iff.mp he
    have hbody := rebuiltBody_of_compare hthunks hs
      (fun htruncate => (congrArg (·.bind (·.size)) he).trans (hsize htruncate)) hcompare
    rw [hlisted, hbody]
    rfl

/-- Two declarations of one size do not change what is listed. -/
theorem rebuiltListing_of_repeated_size :
    let config : Config := ⟨0, [⟨"f", 0, some 2⟩, ⟨"f", 0, some 2⟩]⟩
    let image : Image := ⟨[0x90, 0xC3]⟩
    let rebuilt : RebuiltSide :=
      { image
        symbols := Catalog.ofList [("f", ⟨"f", "f.c", 0, 2⟩)]
        segmentOffset := defaultSegmentOffset }
    let opts : ComparisonOptions := { truncateToReference := true }
    let listing := rebuiltListing opts.lines true rebuilt config.functions
    ∃ t, (compare opts (CommandLine.referenceSide config image) rebuilt "f").result = .ok t ∧
      "f" ∈ missingNames listing.log ∧
      listing.value.filter (·.name = "f") = [⟨"f", 2, t.newText⟩] := by
  intro config image rebuilt opts listing
  have hsucceeds : (compare opts (CommandLine.referenceSide config image) rebuilt
      "f").result.isOk = true := by
    decide +kernel +zetaReduce
  obtain ⟨t, ht⟩ := isOk_iff.mp hsucceeds
  obtain ⟨-, hmissing, -, hlisted⟩ :=
    rebuiltListing_takes_first_declaration config image rebuilt opts
  obtain ⟨-, hagrees⟩ := hlisted ⟨"f", 0, some 2⟩ ⟨"f", "f.c", 0, 2⟩ rfl rfl
  exact ⟨t, ht, (hmissing "f" (by decide)).mpr (by decide),
    hagrees ⟨"f", 0, some 2⟩ t rfl rfl (fun _ => rfl) ht⟩

/-- The second declaration of `f` counts in a comparison, which shows two bytes.  The
listing shows one and then says that `f` is not in the debug file. -/
theorem rebuiltListing_of_repeated_name :
    let config : Config := ⟨0, [⟨"f", 0, some 1⟩, ⟨"f", 0, some 2⟩]⟩
    let image : Image := ⟨[0x90, 0xC3]⟩
    let rebuilt : RebuiltSide :=
      { image
        symbols := Catalog.ofList [("f", ⟨"f", "f.c", 0, 2⟩)]
        segmentOffset := defaultSegmentOffset }
    let opts : ComparisonOptions := { truncateToReference := true }
    let listing := rebuiltListing opts.lines true rebuilt config.functions
    "f" ∈ rebuilt.symbols.keys ∧ listing.log = [.notInDebugFile "f"] ∧
      config.find "f" = .ok ⟨"f", 0, some 2⟩ ∧ listing.value.map (·.body) = ["nop\n"] ∧
      (compare opts (CommandLine.referenceSide config image) rebuilt
        "f").result.toOption.map (·.newText) = some "nop\nret\n" := by
  decide +kernel +zetaReduce

end BinMatch
