import BinMatch.Catalog
import Mathlib.Data.List.Induction
import Mathlib.Data.List.Nodup

/-!
# Looking up a catalog

What is put under a key is found there, and every other key keeps what it had.  A
catalog made of pairs has their keys in the order of first appearance, and under each
key the value of the last pair.
-/

namespace BinMatch

variable {κ ν : Type} [DecidableEq κ]

theorem find?_putEntry (key key' : κ) (value : ν) (entries : List (κ × ν)) :
    ((putEntry key value entries).find? (·.1 = key')).map (·.2) =
      if key' = key then some value else (entries.find? (·.1 = key')).map (·.2) := by
  induction entries with
  | nil => by_cases h : key = key' <;> simp [putEntry, h, eq_comm]
  | cons entry rest ih =>
    by_cases hentry : entry.1 = key
    · by_cases h : key = key'
      · simp [putEntry, hentry, h]
      · simp [putEntry, hentry, h, Ne.symm h]
    · by_cases h : entry.1 = key'
      · have hkey : key' ≠ key := fun hk => hentry (h.trans hk)
        simp [putEntry, h, hkey]
      · simpa [putEntry, hentry, h] using ih

theorem putEntry_of_not_mem {key : κ} {entries : List (κ × ν)}
    (h : key ∉ entries.map (·.1)) (value : ν) :
    putEntry key value entries = entries ++ [(key, value)] := by
  induction entries with
  | nil => rfl
  | cons entry rest ih =>
    rw [List.map_cons, List.mem_cons, not_or] at h
    rw [putEntry, if_neg (Ne.symm h.1), ih h.2, List.cons_append]

namespace Catalog

theorem get?_put (c : Catalog κ ν) (key key' : κ) (value : ν) :
    (c.put key value).get? key' = if key' = key then some value else c.get? key' :=
  find?_putEntry key key' value c.entries

theorem get?_put_self (c : Catalog κ ν) (key : κ) (value : ν) :
    (c.put key value).get? key = some value := by
  rw [get?_put, if_pos rfl]

theorem keys_put (c : Catalog κ ν) (key : κ) (value : ν) :
    (c.put key value).keys = if key ∈ c.keys then c.keys else c.keys ++ [key] :=
  map_fst_putEntry key value c.entries

theorem get?_eq_none_iff {c : Catalog κ ν} {key : κ} :
    c.get? key = none ↔ key ∉ c.keys := by
  simp only [get?, keys, Option.map_eq_none_iff, List.find?_eq_none, decide_eq_true_eq,
    List.mem_map, not_exists, not_and]

theorem contains_iff {c : Catalog κ ν} {key : κ} : c.contains key = true ↔ key ∈ c.keys := by
  rw [contains, Option.isSome_iff_ne_none, ne_eq, get?_eq_none_iff, not_not]

theorem get?_eq_some_iff {c : Catalog κ ν} {key : κ} {value : ν} :
    c.get? key = some value ↔ (key, value) ∈ c.entries := by
  constructor
  · intro h
    obtain ⟨entry, hfind, rfl⟩ := Option.map_eq_some_iff.mp h
    have hkey : entry.1 = key := by simpa using List.find?_some hfind
    subst hkey
    exact List.mem_of_find?_eq_some hfind
  · intro h
    have hkeys : key ∈ c.keys := List.mem_map_of_mem (f := (·.1)) h
    cases hget : c.get? key with
    | none => exact absurd hkeys (get?_eq_none_iff.mp hget)
    | some value' =>
      obtain ⟨entry, hfind, rfl⟩ := Option.map_eq_some_iff.mp hget
      have hkey : entry.1 = key := by simpa using List.find?_some hfind
      have heq := List.inj_on_of_nodup_map c.nodup (List.mem_of_find?_eq_some hfind) h hkey
      rw [heq]

/-- What is found under the keys does not tell the order of the entries. -/
theorem perm_entries_iff {c c' : Catalog κ ν} :
    c.entries.Perm c'.entries ↔ ∀ key, c.get? key = c'.get? key := by
  have hnodup : ∀ c : Catalog κ ν, c.entries.Nodup := fun c => c.nodup.of_map
  rw [List.perm_ext_iff_of_nodup (hnodup c) (hnodup c'), Prod.forall]
  simp only [← get?_eq_some_iff]
  constructor
  · exact fun h key => Option.ext (h key)
  · intro h key value
    rw [h]

/-- A new key goes to the end. -/
theorem entries_put_of_get?_eq_none {c : Catalog κ ν} {key : κ} (h : c.get? key = none)
    (value : ν) : (c.put key value).entries = c.entries ++ [(key, value)] :=
  putEntry_of_not_mem (get?_eq_none_iff.mp h) value

theorem get?_erase (c : Catalog κ ν) (key key' : κ) :
    (c.erase key).get? key' = if key' = key then none else c.get? key' := by
  refine Option.ext fun value => ?_
  rw [get?_eq_some_iff, erase, List.mem_filter]
  by_cases h : key' = key
  · simp [h]
  · rw [if_neg h, get?_eq_some_iff]
    simp [h]

theorem contains_erase (c : Catalog κ ν) (key key' : κ) :
    (c.erase key).contains key' = (decide (key' ≠ key) && c.contains key') := by
  rw [contains, get?_erase, contains]
  by_cases h : key' = key <;> simp [h]

theorem keys_erase (c : Catalog κ ν) (key : κ) :
    (c.erase key).keys = c.keys.filter (· ≠ key) := by
  rw [keys, keys, erase, List.filter_map]
  rfl

theorem ofList_append (pairs : List (κ × ν)) (pair : κ × ν) :
    ofList (pairs ++ [pair]) = (ofList pairs).put pair.1 pair.2 := by
  rw [ofList, List.foldl_append]
  rfl

/-- The last pair under a key counts. -/
theorem get?_ofList (pairs : List (κ × ν)) (key : κ) :
    (ofList pairs).get? key =
      ((pairs.filter (·.1 = key)).getLast?).map (·.2) := by
  induction pairs using List.reverseRecOn with
  | nil => rfl
  | append_singleton pairs pair ih =>
    rw [ofList_append, get?_put, ih, List.filter_append]
    by_cases h : pair.1 = key
    · simp [h]
    · simp [h, Ne.symm h]

theorem keys_ofList (pairs : List (κ × ν)) :
    (ofList pairs).keys = (pairs.map (·.1)).eraseDups := by
  induction pairs using List.reverseRecOn with
  | nil => rfl
  | append_singleton pairs pair ih =>
    rw [ofList_append, keys_put, ih, List.map_append, List.eraseDups_append]
    by_cases h : pair.1 ∈ pairs.map (·.1)
    · rw [if_pos (List.mem_eraseDups.mpr h)]
      simp [List.removeAll, h]
    · rw [if_neg (mt List.mem_eraseDups.mp h)]
      simp [List.removeAll, h, List.eraseDups_cons]

theorem mem_of_get?_ofList {pairs : List (κ × ν)} {key : κ} {value : ν}
    (h : (ofList pairs).get? key = some value) : (key, value) ∈ pairs := by
  rw [get?_ofList] at h
  obtain ⟨pair, hlast, rfl⟩ := Option.map_eq_some_iff.mp h
  have hmem := List.mem_filter.mp (List.mem_of_getLast? hlast)
  obtain rfl : pair.1 = key := by simpa using hmem.2
  exact hmem.1

end Catalog

end BinMatch
