import BinMatch.Proofs.AddressMap
import BinMatch.Proofs.Listing.Agreement

/-!
# Declarations that count

Of several declarations of one name only the last one counts.  The catalog of the names
keeps it at the place where its name was mentioned first, and the address map is filled in
that order.  So where several declarations that count share an address, the map holds the
one whose name was mentioned last, which need not be the one that was declared last.
-/

namespace BinMatch

/-! ## Order of first mention -/

theorem pairwise_idxOf_eraseDups {α : Type} [DecidableEq α] (l : List α) :
    l.eraseDups.Pairwise fun a b => l.idxOf a < l.idxOf b := by
  induction l using List.reverseRecOn with
  | nil => exact List.Pairwise.nil
  | append_singleton l x ih =>
    -- Elements that are there already keep their place.
    have hkept : l.eraseDups.Pairwise fun a b => (l ++ [x]).idxOf a < (l ++ [x]).idxOf b := by
      apply ih.imp_of_mem
      intro a b ha hb h
      rwa [List.idxOf_append_of_mem (List.mem_eraseDups.mp ha),
        List.idxOf_append_of_mem (List.mem_eraseDups.mp hb)]
    rw [List.eraseDups_append]
    by_cases hx : x ∈ l
    · simpa [List.removeAll, hx] using hkept
    · have hnew : ([x].removeAll l).eraseDups = [x] := by
        simp [List.removeAll, hx, List.eraseDups_cons]
      rw [hnew, List.pairwise_append]
      refine ⟨hkept, List.pairwise_singleton _ _, ?_⟩
      intro a ha b hb
      obtain rfl := List.mem_singleton.mp hb
      have ha : a ∈ l := List.mem_eraseDups.mp ha
      rw [List.idxOf_append_of_mem ha, List.idxOf_append_of_notMem hx]
      exact Nat.lt_add_right _ (List.idxOf_lt_length_of_mem ha)

/-! ## Declarations -/

/-- Declarations whose name is not declared again behind them. -/
def liveDeclarations : List Definition → List Definition
  | [] => []
  | d :: rest =>
    if rest.any (·.name = d.name) then liveDeclarations rest else d :: liveDeclarations rest

theorem mem_liveDeclarations {ds : List Definition} {d : Definition} :
    d ∈ liveDeclarations ds ↔ (ds.filter (·.name = d.name)).getLast? = some d := by
  induction ds with
  | nil => simp [liveDeclarations]
  | cons e ds ih =>
    rw [liveDeclarations]
    by_cases hname : e.name = d.name
    · rw [List.filter_cons_of_pos (by simpa using hname), List.getLast?_cons]
      cases hlast : (ds.filter (·.name = d.name)).getLast? with
      | none =>
        have honce : ¬ ds.any (·.name = e.name) = true := by
          simpa [hname, List.filter_eq_nil_iff] using hlast
        rw [if_neg honce, List.mem_cons, ih, hlast]
        simp [eq_comm]
      | some last =>
        have hagain : ds.any (·.name = e.name) = true := by
          obtain ⟨hmem, hlastname⟩ := List.mem_filter.mp (List.mem_of_getLast? hlast)
          exact List.any_eq_true.mpr ⟨last, hmem, by simpa [hname] using hlastname⟩
        rw [if_pos hagain, ih, hlast, Option.getD_some]
    · rw [List.filter_cons_of_neg (by simpa using hname), ← ih]
      have hother : d ≠ e := fun h => hname (h ▸ rfl)
      split
      · exact Iff.rfl
      · rw [List.mem_cons, or_iff_right hother]

namespace Config

variable (config : Config)

/-- How many declarations there are before the first one of this name. -/
def firstMention (name : String) : Nat :=
  (config.functions.map (·.name)).idxOf name

/-- The declarations that count. -/
def live : List Definition :=
  liveDeclarations config.functions

variable {config}

theorem name_of_get?_byName {name : String} {d : Definition}
    (h : config.byName.get? name = some d) : d.name = name := by
  rw [get?_byName] at h
  simpa using (List.mem_filter.mp (List.mem_of_getLast? h)).2

theorem mem_values_byName {d : Definition} : d ∈ config.byName.values ↔ d ∈ config.live := by
  rw [live, mem_liveDeclarations, ← get?_byName]
  constructor
  · intro h
    obtain ⟨⟨name, d⟩, hentry, rfl⟩ := List.mem_map.mp h
    have hget := Catalog.get?_eq_some_iff.mpr hentry
    rwa [name_of_get?_byName hget]
  · intro h
    exact List.mem_map_of_mem (f := (·.2)) (Catalog.get?_eq_some_iff.mp h)

variable (config)

theorem map_name_values_byName :
    config.byName.values.map (·.name) = (config.functions.map (·.name)).eraseDups := by
  have hnames : config.byName.entries.map (·.2.name) = config.byName.keys := by
    apply List.map_congr_left
    intro entry hentry
    exact name_of_get?_byName (Catalog.get?_eq_some_iff.mpr hentry)
  rw [Catalog.values, List.map_map]
  refine hnames.trans ?_
  rw [byName, Catalog.keys_ofList, List.map_map]
  rfl

theorem pairwise_values_byName : config.byName.values.Pairwise fun d e =>
    config.firstMention d.name < config.firstMention e.name := by
  have hnames : (config.byName.values.map (·.name)).Pairwise fun name name' =>
      config.firstMention name < config.firstMention name' := by
    rw [map_name_values_byName]
    exact pairwise_idxOf_eraseDups _
  rwa [List.pairwise_map] at hnames

end Config

/-! ## Addresses of the reference -/

theorem get?_addressMap_referenceSide_iff (config : Config) (image : Image) {address : Int}
    {d : Definition} :
    (CommandLine.referenceSide config image).addressMap.get? address = some d ↔
      d ∈ config.live ∧ d.address = address ∧ ∀ e ∈ config.live, e.address = address →
        config.firstMention e.name ≤ config.firstMention d.name := by
  have hascends := config.pairwise_values_byName.filter (·.address = address)
  have hmem : ∀ e, e ∈ config.byName.values.filter (·.address = address) ↔
      e ∈ config.live ∧ e.address = address := by
    intro e
    rw [List.mem_filter, Config.mem_values_byName, decide_eq_true_eq]
  rw [ReferenceSide.addressMap, CommandLine.referenceSide, get?_ofDefinitions,
    getLast?_eq_some_iff_of_ascending hascends]
  simp only [hmem, and_imp, and_assoc]

/-- The reference's map has the addresses of the declarations that count.  At each of them it
holds the one whose name was mentioned last, which is the one declared last exactly if no
name at that address was mentioned later than its name. -/
theorem reference_address_holds_last_mentioned (config : Config) (image : Image) :
    let side := CommandLine.referenceSide config image
    let declaredLast := AddressMap.ofDefinitions config.live
    (∀ address,
        address ∈ side.addressMap.keys ↔ ∃ d ∈ config.live, d.address = address) ∧
      (∀ address d, side.addressMap.get? address = some d ↔
        d ∈ config.live ∧ d.address = address ∧ ∀ e ∈ config.live, e.address = address →
          config.firstMention e.name ≤ config.firstMention d.name) ∧
      ∀ address, side.addressMap.get? address = declaredLast.get? address ↔
        ∀ d, declaredLast.get? address = some d → ∀ e ∈ config.live, e.address = address →
          config.firstMention e.name ≤ config.firstMention d.name := by
  intro side declaredLast
  have hkeys : ∀ address, address ∈ side.addressMap.keys ↔
      ∃ d ∈ config.live, d.address = address := by
    intro address
    simp only [side, ReferenceSide.addressMap, CommandLine.referenceSide, keys_ofDefinitions,
      List.mem_eraseDups, List.mem_map, Config.mem_values_byName]
  refine ⟨hkeys, fun address d => get?_addressMap_referenceSide_iff config image, ?_⟩
  intro address
  constructor
  · intro h d hd
    exact ((get?_addressMap_referenceSide_iff config image).mp (h.trans hd)).2.2
  · intro h
    cases hlast : declaredLast.get? address with
    | none =>
      have hnone : ¬ ∃ d ∈ config.live, d.address = address := by
        simpa [declaredLast, keys_ofDefinitions] using Catalog.get?_eq_none_iff.mp hlast
      rw [Catalog.get?_eq_none_iff, hkeys]
      exact hnone
    | some d =>
      obtain ⟨hlive, haddress⟩ := mem_of_get?_ofDefinitions hlast
      exact (get?_addressMap_referenceSide_iff config image).mpr ⟨hlive, haddress, h d hlast⟩

/-- A name is mentioned first at another address, and declared last at an address where a
function mentioned later was declared in between. -/
theorem reference_address_misses_last_declared :
    ¬ ∀ (config : Config) (image : Image) (address : Int),
      (CommandLine.referenceSide config image).addressMap.get? address =
        (AddressMap.ofDefinitions config.live).get? address := by
  intro h
  have hmoved :=
    h ⟨0, [⟨"f", 0, none⟩, ⟨"g", 16, none⟩, ⟨"f", 16, none⟩]⟩ ⟨[]⟩ 16
  revert hmoved
  decide

end BinMatch
