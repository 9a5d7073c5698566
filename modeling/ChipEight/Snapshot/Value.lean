/-
**Stored values.**

A stored value is what a snapshot consists of: truth values, numbers, lists and objects with named
fields. A type that can be stored says how it is written and how it is read back (`Stored`). Readers
are exact: a number has to be whole and in range, and a fixed row has to have its length.

A record (`Recorded`) is written as an object. It is read from an object that has every field, and
maybe others, or from a list of its fields alone, in their order.
-/

namespace ChipEight

/-- A stored value. -/
inductive Value where
  /-- No value. -/
  | null
  /-- A truth value. -/
  | truth (value : Bool)
  /-- A whole number. -/
  | whole (value : Int)
  /-- A number written with digits behind the point. -/
  | decimal (digits : Int) (places : Nat)
  /-- A text. -/
  | text (value : String)
  /-- A list of values. -/
  | list (items : List Value)
  /-- Values under names. -/
  | object (fields : List (String × Value))
deriving Inhabited

/-- A type whose values can be stored. -/
class Stored (α : Type) where
  /-- Writes a value. -/
  store : α → Value
  /-- Reads a value, if it is one of this type. -/
  restore? : Value → Option α

export Stored (store restore?)

namespace Value

/-- A whole number from zero up to a bound, which is excluded. -/
def natural? (bound : Nat) : Value → Option Nat
  | whole value => if 0 ≤ value ∧ value < bound then some value.toNat else none
  | _ => none

/-- The values of a record under their names, given the names of all of its fields. -/
def record? (names : List String) : Value → Option (List (String × Value))
  | object entries => some entries
  | list items => if items.length = names.length then some (names.zip items) else none
  | _ => none

/-- The value of a field of a record, read as a value of some type. -/
def field? {α : Type} [Stored α] (entries : List (String × Value)) (name : String) : Option α :=
  (entries.lookup name).bind restore?

/-- Reads every value of a list. -/
def restoreAll? {α : Type} [Stored α] : List Value → Option (List α)
  | [] => some []
  | value :: rest =>
    match restore? value, restoreAll? rest with
    | some first, some others => some (first :: others)
    | _, _ => none

end Value

/-! ### Plain types -/

instance : Stored Bool where
  store := .truth
  restore?
    | .truth value => some value
    | _ => none

instance : Stored UInt8 where
  store value := .whole value.toNat
  restore? value := (value.natural? UInt8.size).map UInt8.ofNat

instance : Stored UInt16 where
  store value := .whole value.toNat
  restore? value := (value.natural? UInt16.size).map UInt16.ofNat

instance : Stored UInt64 where
  store value := .whole value.toNat
  restore? value := (value.natural? UInt64.size).map UInt64.ofNat

/-! ### Rows -/

instance {α : Type} [Stored α] : Stored (List α) where
  store items := .list (items.map store)
  restore?
    | .list values => Value.restoreAll? values
    | _ => none

instance {α : Type} [Stored α] : Stored (Array α) where
  store items := store items.toList
  restore? value := (restore? value).map List.toArray

instance {α : Type} [Stored α] {size : Nat} : Stored (Vector α size) where
  store items := store items.toArray
  restore? value :=
    match (restore? value : Option (Array α)) with
    | none => none
    | some items => if length : items.size = size then some ⟨items, length⟩ else none

/-! ### Records -/

/-- A type whose values are stored as records. -/
class Recorded (α : Type) where
  /-- The names of the fields, in their order. -/
  names : List String
  /-- Writes the fields, in their order. -/
  fields : α → List Value
  /-- Reads a value from named fields, if they are all there. -/
  ofEntries? : List (String × Value) → Option α

instance {α : Type} [Recorded α] : Stored α where
  store value := .object ((Recorded.names α).zip (Recorded.fields value))
  restore? value := (value.record? (Recorded.names α)).bind Recorded.ofEntries?

end ChipEight
