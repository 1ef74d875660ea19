/-!
# Catalogs

A table of entries under pairwise different keys.  Putting an entry under a key
that is present replaces the value and keeps the key's place; a new key goes to
the end.
-/

namespace BinMatch

/-- Put `value` under `key`, in place when the key is present. -/
def putEntry {κ ν : Type} [DecidableEq κ] (key : κ) (value : ν) :
    List (κ × ν) → List (κ × ν)
  | [] => [(key, value)]
  | entry :: rest =>
    if entry.1 = key then (key, value) :: rest
    else entry :: putEntry key value rest

theorem map_fst_putEntry {κ ν : Type} [DecidableEq κ] (key : κ) (value : ν)
    (entries : List (κ × ν)) :
    (putEntry key value entries).map (·.1) =
      if key ∈ entries.map (·.1) then entries.map (·.1)
      else entries.map (·.1) ++ [key] := by
  induction entries with
  | nil => simp [putEntry]
  | cons entry rest ih =>
    by_cases h : entry.1 = key
    · simp [putEntry, h]
    · have h' : ¬ key = entry.1 := fun e => h e.symm
      by_cases hr : key ∈ rest.map (·.1)
      · simp only [putEntry, h, if_false, List.map_cons, ih, hr, if_true,
          List.mem_cons, or_true]
      · simp only [putEntry, h, if_false, List.map_cons, ih, hr, List.mem_cons,
          h', or_self, List.cons_append]

theorem nodup_map_fst_putEntry {κ ν : Type} [DecidableEq κ] (key : κ) (value : ν)
    {entries : List (κ × ν)} (h : (entries.map (·.1)).Nodup) :
    ((putEntry key value entries).map (·.1)).Nodup := by
  rw [map_fst_putEntry]
  split
  · exact h
  · rename_i hk
    rw [List.nodup_append]
    refine ⟨h, by simp, ?_⟩
    intro a ha b hb e
    simp only [List.mem_singleton] at hb
    exact hk (hb ▸ e ▸ ha)

/-- Entries under pairwise different keys, in the order of first appearance. -/
structure Catalog (κ ν : Type) where
  entries : List (κ × ν)
  nodup : (entries.map (·.1)).Nodup

namespace Catalog

variable {κ ν : Type} [DecidableEq κ]

def empty : Catalog κ ν := ⟨[], by simp⟩

def put (c : Catalog κ ν) (key : κ) (value : ν) : Catalog κ ν :=
  ⟨putEntry key value c.entries, nodup_map_fst_putEntry key value c.nodup⟩

def ofList (pairs : List (κ × ν)) : Catalog κ ν :=
  pairs.foldl (fun c p => c.put p.1 p.2) empty

def get? (c : Catalog κ ν) (key : κ) : Option ν :=
  (c.entries.find? (·.1 = key)).map (·.2)

def contains (c : Catalog κ ν) (key : κ) : Bool :=
  (c.get? key).isSome

def keys (c : Catalog κ ν) : List κ :=
  c.entries.map (·.1)

def values (c : Catalog κ ν) : List ν :=
  c.entries.map (·.2)

def size (c : Catalog κ ν) : Nat :=
  c.entries.length

def erase (c : Catalog κ ν) (key : κ) : Catalog κ ν :=
  ⟨c.entries.filter (·.1 ≠ key), by
    exact List.Nodup.sublist (List.Sublist.map _ List.filter_sublist) c.nodup⟩

end Catalog

end BinMatch
