import BinMatch.AddressMap
import BinMatch.Failure
import BinMatch.Numeric.Decimal
import BinMatch.Toml.Document

/-!
# Configuration

The description of the reference binary: the virtual address of its first byte
and the functions declared for it.  A document is checked as a whole, field by
field in order, and every bad field counts.
-/

namespace BinMatch

structure Config where
  addressOffset : Int
  functions : List Definition
  deriving DecidableEq, Repr

namespace Config

/-- Declared functions by name; a later declaration replaces an earlier one. -/
def byName (c : Config) : Catalog String Definition :=
  Catalog.ofList (c.functions.map fun d => (d.name, d))

def byAddress (c : Config) : AddressMap :=
  AddressMap.ofDefinitions c.functions

def find (c : Config) (name : String) : Except Error Definition :=
  match c.byName.get? name with
  | some d => .ok d
  | none => .error (.notConfigured name)

end Config

inductive FieldFault where
  | missing
  | notInteger
  | fractional
  | notFinite
  | unreadableInteger
  | integerTooLong
  | notText
  | notList
  | notDefinition
  deriving DecidableEq, Repr

def FieldFault.message : FieldFault → String
  | .missing => "Field required"
  | .notInteger => "Input should be a valid integer"
  | .fractional =>
    "Input should be a valid integer, got a number with a fractional part"
  | .notFinite => "Input should be a finite number"
  | .unreadableInteger =>
    "Input should be a valid integer, unable to parse string as an integer"
  | .integerTooLong =>
    "Unable to parse input string as an integer, exceeded maximum size"
  | .notText => "Input should be a valid string"
  | .notList => "Input should be a valid list"
  | .notDefinition =>
    "Input should be a valid dictionary or instance of FunctionDefinition"

/-- A value, or the faults of all fields that it was to be made of. -/
abbrev Validated := Except (List FieldFault)

namespace Validated

def both {α β : Type} (a : Validated α) (b : Validated β) : Validated (α × β) :=
  match a, b with
  | .ok a, .ok b => .ok (a, b)
  | .ok _, .error fs => .error fs
  | .error fs, .ok _ => .error fs
  | .error fs, .error gs => .error (fs ++ gs)

def all {α : Type} : List (Validated α) → Validated (List α)
  | [] => .ok []
  | v :: vs =>
    match both v (all vs) with
    | .ok (a, as) => .ok (a :: as)
    | .error fs => .error fs

end Validated

namespace Config

open Toml

/-- Whole fractions count as integers below this magnitude. -/
def fractionBound : Nat := Nat.pow 2 63

/-- A fraction counts as an integer when it has no fractional part. -/
def integerOfDecimal (x : Float) : Validated Int :=
  match Numeric.FiniteFloat.ofFloat? x with
  | none => .error [.notFinite]
  | some d =>
    match d.toInt? with
    | some n =>
      if n.natAbs < fractionBound then .ok n else .error [.integerTooLong]
    | none => .error [.fractional]

def integerOfText (s : String) : Validated Int :=
  match Numeric.Decimal.integer s.toList with
  | .ok n => .ok n
  | .error .malformed => .error [.unreadableInteger]
  | .error .tooLong => .error [.integerTooLong]

/-- Integers, truth values as zero or one, whole fractions, and text that reads
as an integer. -/
def integer : Value → Validated Int
  | .integer n => .ok n
  | .boolean b => .ok (if b then 1 else 0)
  | .decimal x => integerOfDecimal x
  | .text s => integerOfText s
  | .moment | .array _ | .table _ => .error [.notInteger]

def text : Value → Validated String
  | .text s => .ok s
  | _ => .error [.notText]

def required {α : Type} (read : Value → Validated α) (t : Table)
    (key : String) : Validated α :=
  match t.get? key with
  | some v => read v
  | none => .error [.missing]

def optional {α : Type} (read : Value → Validated α) (t : Table)
    (key : String) : Validated (Option α) :=
  match t.get? key with
  | some v =>
    match read v with
    | .ok a => .ok (some a)
    | .error fs => .error fs
  | none => .ok none

def definition : Value → Validated Definition
  | .table t =>
    match Validated.both (required text t "name")
        (Validated.both (required integer t "addr") (optional integer t "size"))
      with
    | .ok (name, address, size) => .ok { name, address, size }
    | .error fs => .error fs
  | _ => .error [.notDefinition]

def definitions : Value → Validated (List Definition)
  | .array items => Validated.all (items.map definition)
  | _ => .error [.notList]

/-- The configuration of a document; fields that it leaves out are empty. -/
def ofTable (t : Table) : Validated Config :=
  match Validated.both (optional integer t "address_offset")
      (optional definitions t "func")
    with
  | .ok (offset, functions) =>
    .ok { addressOffset := offset.getD 0, functions := functions.getD [] }
  | .error fs => .error fs

def faultSummary (faults : List FieldFault) : String :=
  toString faults.length ++ " validation error(s): " ++
    ((faults.head?.map (·.message)).getD "")

def ofBytes (path : Path) (bytes : List UInt8) : Except Failure Config :=
  let invalid (detail : String) : Except Failure Config :=
    .error (.reported (.invalidConfig path.toString detail))
  match String.fromUTF8? ⟨bytes.toArray⟩ with
  | none => invalid "<utf-8>"
  | some document =>
    match Document.parse document with
    | .error .malformed => invalid "<toml>"
    | .error .numberTooLong => .error (.broken .numberTooLong)
    | .error .nestedTooDeep => .error (.broken .nestedTooDeep)
    | .ok t =>
      match ofTable t with
      | .ok c => .ok c
      | .error faults => invalid (faultSummary faults)

end Config

def Disk.readConfig (disk : Disk) (path : Path) : Except Failure Config :=
  match disk.read path with
  | .error stop => .error (stop.failure path)
  | .ok content => Config.ofBytes path content.bytes

end BinMatch
