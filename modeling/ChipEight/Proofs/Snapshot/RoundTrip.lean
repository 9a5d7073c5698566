/-
**What is stored can be restored.**

`LawfulStored`: a type whose values are read back from what they are written as. Truth values, numbers
and rows of such types are of this kind, and so is every part of a machine, with memory and screen of
any size.
-/

import Mathlib.Tactic.Common
import ChipEight.Snapshot.Machine

namespace ChipEight

/-- **A type whose values are read back from what they are written as.** -/
class LawfulStored (α : Type) [Stored α] : Prop where
  restore?_store : ∀ value : α, restore? (store value) = some value

export LawfulStored (restore?_store)

attribute [simp] restore?_store

/-! ### Plain types -/

instance : LawfulStored Bool where
  restore?_store _ := rfl

theorem Value.natural?_whole {bound value : Nat} (inside : value < bound) :
    (whole value).natural? bound = some value := by
  have range : 0 ≤ (value : Int) ∧ (value : Int) < bound := by omega
  rw [natural?, if_pos range, Int.toNat_natCast]

instance : LawfulStored UInt8 where
  restore?_store value := by
    show ((Value.whole value.toNat).natural? UInt8.size).map UInt8.ofNat = _
    rw [Value.natural?_whole value.toNat_lt, Option.map_some, UInt8.ofNat_toNat]

instance : LawfulStored UInt16 where
  restore?_store value := by
    show ((Value.whole value.toNat).natural? UInt16.size).map UInt16.ofNat = _
    rw [Value.natural?_whole value.toNat_lt, Option.map_some, UInt16.ofNat_toNat]

instance : LawfulStored UInt64 where
  restore?_store value := by
    show ((Value.whole value.toNat).natural? UInt64.size).map UInt64.ofNat = _
    rw [Value.natural?_whole value.toNat_lt, Option.map_some, UInt64.ofNat_toNat]

/-! ### Rows -/

section Rows

variable {α : Type} [Stored α] [LawfulStored α]

theorem Value.restoreAll?_map_store (items : List α) :
    restoreAll? (items.map store) = some items := by
  induction items with
  | nil => rfl
  | cons item rest ih => rw [List.map_cons, restoreAll?, restore?_store, ih]

instance : LawfulStored (List α) where
  restore?_store := Value.restoreAll?_map_store

instance : LawfulStored (Array α) where
  restore?_store items := by
    show (restore? (store items.toList)).map List.toArray = _
    rw [restore?_store, Option.map_some, Array.toArray_toList]

instance {size : Nat} : LawfulStored (Vector α size) where
  restore?_store items := by
    show (match (restore? (store items.toArray) : Option (Array α)) with
      | none => none
      | some found =>
        if length : found.size = size then some (Vector.mk found length) else none) = _
    rw [restore?_store]
    exact dif_pos items.size_toArray

end Rows

/-! ### Records -/

section Records

variable {α : Type}

@[simp]
theorem Value.field?_cons [Stored α] (value : Value) (rest : List (String × Value))
    (name other : String) :
    (field? ((other, value) :: rest) name : Option α) =
      if name = other then restore? value else field? rest name := by
  unfold field?
  rw [List.lookup_cons]
  split
  · rename_i same
    rw [if_pos (eq_of_beq same), Option.bind_some]
  · rename_i different
    rw [if_neg (ne_of_beq_false different)]

/-- A record is read back if its fields are. -/
theorem LawfulStored.of_fields [Recorded α]
    (lawful : ∀ value : α,
      Recorded.ofEntries? ((Recorded.names α).zip (Recorded.fields value)) = some value) :
    LawfulStored α :=
  ⟨lawful⟩

end Records

/-! ### Parts of a machine -/

instance : LawfulStored Variant := .of_fields fun variant => by
  simp [Recorded.ofEntries?, Recorded.names, Recorded.fields]

instance : LawfulStored Settings := .of_fields fun settings => by
  simp [Recorded.ofEntries?, Recorded.names, Recorded.fields]

instance : LawfulStored Control := .of_fields fun control => by
  simp [Recorded.ofEntries?, Recorded.names, Recorded.fields]

instance : LawfulStored Memory := .of_fields fun memory => by
  simp [Recorded.ofEntries?, Recorded.names, Recorded.fields]

instance : LawfulStored Screen := .of_fields fun screen => by
  simp [Recorded.ofEntries?, Recorded.names, Recorded.fields]

instance : LawfulStored Registers := .of_fields fun registers => by
  simp [Recorded.ofEntries?, Recorded.names, Recorded.fields]

instance : LawfulStored Image := .of_fields fun image => by
  simp [Recorded.ofEntries?, Recorded.names, Recorded.fields]

end ChipEight
