import BinMatch.Proofs.Comparison.Outcome
import BinMatch.Proofs.Text.Order
import Mathlib.Data.String.Basic

/-!
# Symbols in an address map

An address map has every address at which a symbol stands, and under it the symbol with
the greatest name of those that stand there, in whatever order they are given.  So a symbol
that shares its address with no other one is found under it.
-/

namespace BinMatch

theorem keys_ofDefinitions (definitions : List Definition) :
    (AddressMap.ofDefinitions definitions).keys =
      (definitions.map (·.address)).eraseDups := by
  rw [AddressMap.ofDefinitions, Catalog.keys_ofList, List.map_map]
  rfl

theorem get?_ofDefinitions (definitions : List Definition) (address : Int) :
    (AddressMap.ofDefinitions definitions).get? address =
      (definitions.filter (·.address = address)).getLast? := by
  rw [AddressMap.ofDefinitions, Catalog.get?_ofList, List.filter_map, List.getLast?_map,
    Option.map_map]
  exact Option.map_id'

/-- The last element of a list that ascends is its greatest one. -/
theorem getLast?_eq_some_iff_of_ascending {α β : Type} [LinearOrder β] {rank : α → β}
    {l : List α} (h : l.Pairwise fun a b => rank a < rank b) {x : α} :
    l.getLast? = some x ↔ x ∈ l ∧ ∀ y ∈ l, rank y ≤ rank x := by
  induction l using List.reverseRecOn with
  | nil => simp
  | append_singleton l y _ =>
    obtain ⟨-, -, hbelow⟩ := List.pairwise_append.mp h
    rw [List.getLast?_append, List.getLast?_singleton, Option.some_or, Option.some.injEq]
    constructor
    · rintro rfl
      refine ⟨by simp, fun z hz => ?_⟩
      rcases List.mem_append.mp hz with hz | hz
      · exact le_of_lt (hbelow z hz y (List.mem_singleton_self y))
      · rw [List.mem_singleton.mp hz]
    · rintro ⟨hx, hgreatest⟩
      rcases List.mem_append.mp hx with hx | hx
      · have hlt := hbelow x hx y (List.mem_singleton_self y)
        exact absurd hlt (not_lt_of_ge (hgreatest y (by simp)))
      · exact (List.mem_singleton.mp hx).symm

theorem mem_of_get?_ofDefinitions {definitions : List Definition} {address : Int}
    {d : Definition} (h : (AddressMap.ofDefinitions definitions).get? address = some d) :
    d ∈ definitions ∧ d.address = address := by
  obtain ⟨d', hd', hpair⟩ := List.mem_map.mp (Catalog.mem_of_get?_ofList h)
  obtain ⟨haddress, rfl⟩ := Prod.mk.inj hpair
  exact ⟨hd', haddress⟩

/-! ## Symbols -/

section Symbols

variable {symbols symbols' : Catalog String Symbol} {segmentOffset address : Int}

theorem mem_sortedByName {ν : Type} {entries : List (String × ν)} {entry : String × ν} :
    entry ∈ sortedByName entries ↔ entry ∈ entries :=
  List.mem_mergeSort

theorem pairwise_sortedByName (symbols : Catalog String Symbol) :
    (sortedByName symbols.entries).Pairwise fun a b => a.1 < b.1 :=
  Text.pairwise_lt_mergeSort_key symbols.nodup

theorem ofSymbols_eq_of_perm (h : symbols.entries.Perm symbols'.entries) :
    AddressMap.ofSymbols segmentOffset symbols = AddressMap.ofSymbols segmentOffset symbols' := by
  have hsorted : sortedByName symbols.entries = sortedByName symbols'.entries :=
    Text.mergeSort_key_eq_of_perm symbols.nodup h
  rw [AddressMap.ofSymbols, AddressMap.ofSymbols, hsorted]

/-- The order of the names does not decide which addresses there are. -/
theorem mem_keys_ofSymbols :
    address ∈ (AddressMap.ofSymbols segmentOffset symbols).keys ↔
      ∃ name s, symbols.get? name = some s ∧ s.offset + segmentOffset = address := by
  simp only [AddressMap.ofSymbols, keys_ofDefinitions, List.map_map, List.mem_eraseDups,
    List.mem_map, mem_sortedByName, Prod.exists, Catalog.get?_eq_some_iff]
  rfl

theorem get?_ofSymbols :
    (AddressMap.ofSymbols segmentOffset symbols).get? address =
      ((sortedByName symbols.entries).filter
          (·.2.offset + segmentOffset = address)).getLast?.map
        (·.2.toDefinition segmentOffset) := by
  rw [AddressMap.ofSymbols, get?_ofDefinitions, List.filter_map, List.getLast?_map]
  rfl

/-- Of the symbols at an address, the one that is put last has the greatest name. -/
theorem get?_ofSymbols_eq_some_iff {d : Definition} :
    (AddressMap.ofSymbols segmentOffset symbols).get? address = some d ↔
      ∃ name s, symbols.get? name = some s ∧ s.offset + segmentOffset = address ∧
        d = s.toDefinition segmentOffset ∧
        ∀ name' s', symbols.get? name' = some s' → s'.offset + segmentOffset = address →
          name' ≤ name := by
  have hlast : ∀ entry : String × Symbol,
      ((sortedByName symbols.entries).filter
          (·.2.offset + segmentOffset = address)).getLast? = some entry ↔
        (symbols.get? entry.1 = some entry.2 ∧ entry.2.offset + segmentOffset = address) ∧
          ∀ name' s', symbols.get? name' = some s' → s'.offset + segmentOffset = address →
            name' ≤ entry.1 := by
    intro entry
    have hascends := (pairwise_sortedByName symbols).filter
      (·.2.offset + segmentOffset = address)
    rw [getLast?_eq_some_iff_of_ascending hascends]
    simp only [List.mem_filter, decide_eq_true_eq, mem_sortedByName, Prod.forall,
      Catalog.get?_eq_some_iff, and_imp]
  rw [get?_ofSymbols, Option.map_eq_some_iff]
  constructor
  · rintro ⟨⟨name, s⟩, hentry, rfl⟩
    obtain ⟨⟨hs, haddress⟩, hgreatest⟩ := (hlast (name, s)).mp hentry
    exact ⟨name, s, hs, haddress, rfl, hgreatest⟩
  · rintro ⟨name, s, hs, haddress, rfl, hgreatest⟩
    exact ⟨(name, s), (hlast (name, s)).mpr ⟨⟨hs, haddress⟩, hgreatest⟩, rfl⟩

end Symbols

namespace RebuiltSide

variable {side : RebuiltSide} {s : Symbol}

theorem mem_keys_addressMap {address : Int} :
    address ∈ side.addressMap.keys ↔
      ∃ name s, side.symbols.get? name = some s ∧ side.virtualAddress s = address :=
  mem_keys_ofSymbols

theorem exists_symbol_of_get?_addressMap {address : Int} {d : Definition}
    (h : side.addressMap.get? address = some d) :
    ∃ name s, side.symbols.get? name = some s ∧ side.virtualAddress s = address ∧
      d = s.toDefinition side.segmentOffset := by
  obtain ⟨name, s, hs, haddress, hd, -⟩ := get?_ofSymbols_eq_some_iff.mp h
  exact ⟨name, s, hs, haddress, hd⟩

/-- A symbol that is alone at its address is what the address stands for. -/
theorem get?_addressMap_of_alone {name : String} (hs : side.symbols.get? name = some s)
    (halone : ∀ name' s', side.symbols.get? name' = some s' →
      side.virtualAddress s' = side.virtualAddress s → name' = name) :
    side.addressMap.get? (side.virtualAddress s) =
      some (s.toDefinition side.segmentOffset) :=
  get?_ofSymbols_eq_some_iff.mpr ⟨name, s, hs, rfl, rfl,
    fun name' s' hs' haddress => le_of_eq (halone name' s' hs' haddress)⟩

end RebuiltSide

end BinMatch
