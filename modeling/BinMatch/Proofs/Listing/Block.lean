import BinMatch.Listing
import BinMatch.Proofs.Catalog
import BinMatch.Proofs.Log

/-!
# Blocks of a listing

A listing has one block for every declaration that is shown, in the order of the
declarations.  A block of the rebuilt listing takes the symbol of its name away, so there
only the first declaration of a name is shown.
-/

namespace BinMatch

open X86

/-! ## Single blocks -/

def blockOf? (name : String) (shownSize : Int) (body : Except Error String) :
    Option ListingBlock :=
  body.toOption.map fun body => { name, size := shownSize, body }

theorem blockOf?_eq_some_iff {name : String} {shownSize : Int} {body : Except Error String}
    {block : ListingBlock} :
    blockOf? name shownSize body = some block ↔
      body = .ok block.body ∧ block.name = name ∧ block.size = shownSize := by
  cases body with
  | error e => simp [blockOf?, Except.toOption]
  | ok text =>
    constructor
    · intro h
      obtain rfl := Option.some.inj h
      exact ⟨rfl, rfl, rfl⟩
    · rintro ⟨h, rfl, rfl⟩
      obtain rfl := Except.ok.inj h
      rfl

theorem value_blockOrRemark (name : String) (shownSize : Int) (body : Except Error String) :
    (blockOrRemark name shownSize body).value = (blockOf? name shownSize body).toList := by
  cases body <;> rfl

/-- What the reference listing shows of a declared function with this size. -/
def referenceBody (opts : LineOptions) (side : ReferenceSide) (d : Definition) (size : Int) :
    Except Error String := do
  let code ← side.image.slice d.name (side.fileOffset d) size
  render opts side.addressMap code d.address

/-- What the rebuilt listing shows of a declared function at its symbol. -/
def rebuiltBody (opts : LineOptions) (truncate : Bool) (side : RebuiltSide) (d : Definition)
    (s : Symbol) : Except Error String := do
  let code ← side.image.slice d.name s.offset (if truncate then d.size.getD s.size else s.size)
  render opts side.addressMap code (side.virtualAddress s)

theorem blockOf?_eq_map (name : String) (shownSize : Int) (body : Except Error String) :
    blockOf? name shownSize body =
      (body.toOption.map (shownSize, ·)).map fun p => ⟨name, p.1, p.2⟩ := by
  cases body <;> rfl

/-- The block of a declaration, unless the size is missing or the body fails. -/
def referenceBlock? (opts : LineOptions) (side : ReferenceSide) (d : Definition) :
    Option ListingBlock :=
  d.size.bind fun size => blockOf? d.name size (referenceBody opts side d size)

/-- The block of a declaration, unless the symbol is missing or the body fails. -/
def rebuiltBlock? (opts : LineOptions) (truncate : Bool) (side : RebuiltSide)
    (d : Definition) : Option ListingBlock :=
  (side.symbols.get? d.name).bind fun s =>
    blockOf? d.name s.size (rebuiltBody opts truncate side d s)

def referenceShown? (opts : LineOptions) (side : ReferenceSide) (d : Definition) :
    Option (Int × String) :=
  d.size.bind fun size => (referenceBody opts side d size).toOption.map (size, ·)

def rebuiltShown? (opts : LineOptions) (truncate : Bool) (side : RebuiltSide)
    (d : Definition) : Option (Int × String) :=
  (side.symbols.get? d.name).bind fun s =>
    (rebuiltBody opts truncate side d s).toOption.map (s.size, ·)

theorem referenceBlock?_eq_map (opts : LineOptions) (side : ReferenceSide) (d : Definition) :
    referenceBlock? opts side d =
      (referenceShown? opts side d).map fun p => ⟨d.name, p.1, p.2⟩ := by
  simp only [referenceBlock?, referenceShown?, blockOf?_eq_map, Option.map_bind,
    Function.comp_def]

theorem rebuiltBlock?_eq_map (opts : LineOptions) (truncate : Bool) (side : RebuiltSide)
    (d : Definition) :
    rebuiltBlock? opts truncate side d =
      (rebuiltShown? opts truncate side d).map fun p => ⟨d.name, p.1, p.2⟩ := by
  simp only [rebuiltBlock?, rebuiltShown?, blockOf?_eq_map, Option.map_bind,
    Function.comp_def]

theorem value_referenceBlock (opts : LineOptions) (side : ReferenceSide) (d : Definition) :
    (referenceBlock opts side d).value = (referenceBlock? opts side d).toList := by
  rw [referenceBlock, referenceBlock?]
  cases d.size with
  | none => rfl
  | some size => exact value_blockOrRemark d.name size _

theorem value_rebuiltBlock (opts : LineOptions) (truncate : Bool) (side : RebuiltSide)
    (d : Definition) (s : Symbol) :
    (rebuiltBlock opts truncate side d s).value =
      (blockOf? d.name s.size (rebuiltBody opts truncate side d s)).toList := by
  rw [← value_blockOrRemark, rebuiltBlock]
  split <;> rfl

theorem mem_rebuiltBlock {opts : LineOptions} {truncate : Bool} {side : RebuiltSide}
    {d : Definition} {s : Symbol} {block : ListingBlock}
    (h : block ∈ (rebuiltBlock opts truncate side d s).value) :
    rebuiltBody opts truncate side d s = .ok block.body := by
  rw [value_rebuiltBlock, Option.mem_toList] at h
  exact (blockOf?_eq_some_iff.mp h).1

theorem name_of_referenceBlock? {opts : LineOptions} {side : ReferenceSide} {d : Definition}
    {block : ListingBlock} (h : referenceBlock? opts side d = some block) :
    block.name = d.name := by
  obtain ⟨size, -, hblock⟩ := Option.bind_eq_some_iff.mp h
  exact (blockOf?_eq_some_iff.mp hblock).2.1

theorem name_of_rebuiltBlock? {opts : LineOptions} {truncate : Bool} {side : RebuiltSide}
    {d : Definition} {block : ListingBlock}
    (h : rebuiltBlock? opts truncate side d = some block) : block.name = d.name := by
  obtain ⟨s, -, hblock⟩ := Option.bind_eq_some_iff.mp h
  exact (blockOf?_eq_some_iff.mp hblock).2.1

/-! ## First declarations -/

def firstDeclarations : List Definition → List Definition
  | [] => []
  | d :: declared => d :: (firstDeclarations declared).filter (·.name ≠ d.name)

theorem firstDeclarations_sublist (declared : List Definition) :
    (firstDeclarations declared).Sublist declared := by
  induction declared with
  | nil => exact .slnil
  | cons d declared ih => exact (List.filter_sublist.trans ih).cons_cons d

theorem filter_firstDeclarations (declared : List Definition) (name : String) :
    (firstDeclarations declared).filter (·.name = name) =
      (declared.find? (·.name = name)).toList := by
  induction declared with
  | nil => rfl
  | cons d declared ih =>
    rw [firstDeclarations]
    by_cases h : d.name = name
    · have hothers : ((firstDeclarations declared).filter (·.name ≠ d.name)).filter
          (·.name = name) = [] := by
        rw [List.filter_filter, List.filter_eq_nil_iff]
        intro d' _
        simp [h]
      rw [List.filter_cons_of_pos (by simpa using h), hothers,
        List.find?_cons_of_pos (by simpa using h)]
      rfl
    · have hothers : ((firstDeclarations declared).filter (·.name ≠ d.name)).filter
          (·.name = name) = (firstDeclarations declared).filter (·.name = name) := by
        rw [List.filter_filter]
        refine List.filter_congr fun d' _ => ?_
        by_cases hd : d'.name = name <;> simp [hd, Ne.symm h]
      rw [List.filter_cons_of_neg (by simpa using h), hothers, ih,
        List.find?_cons_of_neg (by simpa using h)]

/-! ## Whole listings -/

section Listing

variable {block? : Definition → Option ListingBlock}

/-- Every declaration that is shown stands in the listing as its head and its body, in the
order of the declarations; one that is not shown adds nothing.  `shown?` is the size that
the head names, and the body. -/
structure Lists (blocks : List ListingBlock) (declared : List Definition)
    (shown? : Definition → Option (Int × String)) : Prop where
  text : listingText blocks = String.join (declared.map fun d =>
    match shown? d with
    | some (size, body) =>
      "\n;\n; " ++ d.name ++ "\n; size: " ++ Text.Hex.address size ++ "\n;\n\n" ++ body
    | none => "")
  count : blocks.length = declared.countP fun d => (shown? d).isSome

theorem lists_filterMap (declared : List Definition)
    (shown? : Definition → Option (Int × String)) :
    Lists (declared.filterMap fun d => (shown? d).map fun p => ⟨d.name, p.1, p.2⟩) declared
      shown? := by
  induction declared with
  | nil => exact ⟨rfl, rfl⟩
  | cons d declared ih =>
    have htext := ih.text
    rw [listingText] at htext
    cases hshown : shown? d with
    | none => exact ⟨by simp [listingText, hshown, htext], by simp [hshown, ih.count]⟩
    | some p =>
      have hfirst : (⟨d.name, p.1, p.2⟩ : ListingBlock).text = "\n;\n; " ++ d.name ++
          "\n; size: " ++ Text.Hex.address p.1 ++ "\n;\n\n" ++ p.2 := rfl
      exact ⟨by simp [listingText, hshown, htext, hfirst], by simp [hshown, ih.count]⟩

/-- Blocks of one name come from the declarations of that name. -/
theorem filter_filterMap_name (hname : ∀ d block, block? d = some block → block.name = d.name)
    (declared : List Definition) (name : String) :
    (declared.filterMap block?).filter (·.name = name) =
      (declared.filter (·.name = name)).filterMap block? := by
  rw [List.filter_filterMap, List.filterMap_filter]
  refine List.filterMap_congr fun d _ => ?_
  cases hblock : block? d with
  | none => simp
  | some block =>
    have hsame := hname d block hblock
    by_cases h : d.name = name <;> simp [Option.filter, hsame, h]

end Listing

theorem value_referenceListing (opts : LineOptions) (side : ReferenceSide)
    (declared : List Definition) :
    (referenceListing opts side declared).value =
      declared.filterMap (referenceBlock? opts side) := by
  rw [referenceListing, Logged.value_bind, Logged.value_pure, Logged.value_mapM,
    List.filterMap_eq_flatMap_toList, List.flatMap_def]
  simp only [value_referenceBlock]

section Rebuilt

variable (opts : LineOptions) (truncate : Bool) (side : RebuiltSide)

/-- A declaration takes the symbol of its name from those that remain. -/
theorem value_rebuiltBlocks (remaining : Catalog String Symbol) (declared : List Definition) :
    (rebuiltBlocks opts truncate side remaining declared).value.1 =
      (firstDeclarations declared).filterMap fun d =>
        (remaining.get? d.name).bind fun s =>
          blockOf? d.name s.size (rebuiltBody opts truncate side d s) := by
  induction declared generalizing remaining with
  | nil => rfl
  | cons d declared ih =>
    rw [rebuiltBlocks, firstDeclarations, List.filterMap_cons, List.filterMap_filter]
    -- Later declarations of this name show nothing: there was no symbol, or it is gone.
    cases hd : remaining.get? d.name with
    | none =>
      simp only [Logged.value_bind, ih, Option.bind_none]
      refine List.filterMap_congr fun d' _ => ?_
      by_cases h : d'.name = d.name <;> simp [h, hd]
    | some s =>
      have hothers : (firstDeclarations declared).filterMap (fun d' =>
            ((remaining.erase d.name).get? d'.name).bind fun s =>
              blockOf? d'.name s.size (rebuiltBody opts truncate side d' s)) =
          (firstDeclarations declared).filterMap fun d' =>
            if d'.name ≠ d.name then
              (remaining.get? d'.name).bind fun s =>
                blockOf? d'.name s.size (rebuiltBody opts truncate side d' s)
            else none := by
        refine List.filterMap_congr fun d' _ => ?_
        by_cases h : d'.name = d.name <;> simp [h, Catalog.get?_erase]
      simp only [Logged.value_bind, Logged.value_pure, value_rebuiltBlock, ih, hothers,
        Option.bind_some]
      cases blockOf? d.name s.size (rebuiltBody opts truncate side d s) <;> simp

theorem value_rebuiltListing (declared : List Definition) :
    (rebuiltListing opts truncate side declared).value =
      (firstDeclarations declared).filterMap (rebuiltBlock? opts truncate side) :=
  value_rebuiltBlocks opts truncate side side.symbols declared

end Rebuilt

theorem filter_referenceListing (opts : LineOptions) (side : ReferenceSide)
    (declared : List Definition) (name : String) :
    (referenceListing opts side declared).value.filter (·.name = name) =
      (declared.filter (·.name = name)).filterMap (referenceBlock? opts side) := by
  rw [value_referenceListing]
  exact filter_filterMap_name (fun _ _ => name_of_referenceBlock?) declared name

theorem filter_rebuiltListing (opts : LineOptions) (truncate : Bool) (side : RebuiltSide)
    (declared : List Definition) (name : String) :
    (rebuiltListing opts truncate side declared).value.filter (·.name = name) =
      ((declared.find? (·.name = name)).bind (rebuiltBlock? opts truncate side)).toList := by
  rw [value_rebuiltListing, filter_filterMap_name (fun _ _ => name_of_rebuiltBlock?),
    filter_firstDeclarations]
  cases declared.find? (·.name = name) with
  | none => rfl
  | some d => cases h : rebuiltBlock? opts truncate side d <;> simp [h]

/-- A block of the rebuilt listing stands for a declaration that has a symbol. -/
theorem mem_rebuiltListing {opts : LineOptions} {truncate : Bool} {side : RebuiltSide}
    {declared : List Definition} {block : ListingBlock}
    (h : block ∈ (rebuiltListing opts truncate side declared).value) :
    ∃ d ∈ declared, ∃ s, side.symbols.get? d.name = some s ∧
      block ∈ (rebuiltBlock opts truncate side d s).value := by
  rw [value_rebuiltListing] at h
  obtain ⟨d, hd, hblock⟩ := List.mem_filterMap.mp h
  obtain ⟨s, hs, hblock⟩ := Option.bind_eq_some_iff.mp hblock
  refine ⟨d, (firstDeclarations_sublist declared).subset hd, s, hs, ?_⟩
  rw [value_rebuiltBlock]
  exact Option.mem_toList.mpr hblock

end BinMatch
