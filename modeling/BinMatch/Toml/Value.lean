/-!
# Configuration values

The values of a configuration document and the tables that hold them.
-/

namespace BinMatch.Toml

inductive Value where
  | text (s : String)
  | integer (n : Int)
  | decimal (x : Float)
  | boolean (b : Bool)
  /-- A date, a time of day, or both. -/
  | moment
  | array (items : List Value)
  | table (entries : List (String × Value))

abbrev Table := List (String × Value)

namespace Table

def get? (t : Table) (key : String) : Option Value :=
  (t.find? (·.1 = key)).map (·.2)

/-- The table with a value under a key, in place when the key is present. -/
def put (key : String) (value : Value) : Table → Table
  | [] => [(key, value)]
  | entry :: rest =>
    if entry.1 = key then (key, value) :: rest
    else entry :: put key value rest

/-- Change the table that a path of keys leads to, making tables on the way; the
change tells how.  A path leads through the last item of an array of tables if
`intoArrays` says so, and fails on any other value. -/
def modifyAt (intoArrays : Bool) (change : Table → Option Table) :
    List String → Table → Option Table
  | [], t => change t
  | key :: path, t => do
    match t.get? key with
    | none => do
      let inner ← modifyAt intoArrays change path []
      pure (put key (.table inner) t)
    | some (.table entries) => do
      let inner ← modifyAt intoArrays change path entries
      pure (put key (.table inner) t)
    | some (.array items) =>
      match intoArrays, items.getLast? with
      | true, some (.table entries) => do
        let inner ← modifyAt intoArrays change path entries
        pure (put key (.array (items.dropLast ++ [.table inner])) t)
      | _, _ => none
    | some _ => none

def putNew (key : String) (value : Value) (t : Table) : Option Table :=
  if (t.get? key).isSome then none else some (put key value t)

/-- Add an empty table to the array under a key, which may be new. -/
def appendTable (key : String) (t : Table) : Option Table :=
  match t.get? key with
  | none => some (put key (.array [.table []]) t)
  | some (.array items) => some (put key (.array (items ++ [.table []])) t)
  | some _ => none

end Table

end BinMatch.Toml
