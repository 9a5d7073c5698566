/-
**Which values can be restored.**

The values of a type are described without reading them: by what they are (`IsTruth`, `IsNatural`), by
their items (`IsListOf`, `IsRowOf`) and by their fields (`IsRecord`). `ReadsExactly` says that a type
is restored from just the values of such a description, provided that no object in them repeats a
name. It holds of every part of a machine.
-/

import Mathlib.Algebra.Group.Nat.Defs
import Mathlib.Data.List.Forall2
import ChipEight.Snapshot.Machine

namespace ChipEight

namespace Value

/-! ### Descriptions -/

/-- A value in which no object repeats a name. -/
inductive Unrepeated : Value → Prop
  | null : Unrepeated null
  | truth (value : Bool) : Unrepeated (truth value)
  | whole (value : Int) : Unrepeated (whole value)
  | decimal (digits : Int) (places : Nat) : Unrepeated (decimal digits places)
  | text (value : String) : Unrepeated (text value)
  | list {items : List Value} (each : ∀ item ∈ items, Unrepeated item) : Unrepeated (list items)
  | object {entries : List (String × Value)} (names : (entries.map Prod.fst).Nodup)
      (each : ∀ entry ∈ entries, Unrepeated entry.2) : Unrepeated (object entries)

/-- A truth value. -/
def IsTruth (value : Value) : Prop :=
  ∃ answer, value = truth answer

/-- A whole number from zero up to a bound, which is excluded. -/
def IsNatural (bound : Nat) (value : Value) : Prop :=
  ∃ number : Nat, number < bound ∧ value = whole number

/-- A list of any length. -/
def IsListOf (allows : Value → Prop) (value : Value) : Prop :=
  ∃ items, value = list items ∧ ∀ item ∈ items, allows item

/-- A list of a given length. -/
def IsRowOf (size : Nat) (allows : Value → Prop) (value : Value) : Prop :=
  ∃ items, value = list items ∧ items.length = size ∧ ∀ item ∈ items, allows item

/-- A field of a record: its name and what its value may be. -/
structure Field where
  name : String
  allows : Value → Prop

/-- **A record with the given fields**: an object that has all of them, and maybe others, or a list of
their values in order. -/
inductive IsRecord (fields : List Field) : Value → Prop
  | byName {entries : List (String × Value)}
      (present : ∀ field ∈ fields, ∃ value, (field.name, value) ∈ entries ∧ field.allows value) :
      IsRecord fields (object entries)
  | byPlace {items : List Value} (present : List.Forall₂ Field.allows fields items) :
      IsRecord fields (list items)

/-! ### The shapes of the parts of a machine -/

def IsVariant : Value → Prop :=
  IsRecord [⟨"dma_inc", IsTruth⟩, ⟨"screen_wrap", IsTruth⟩]

def IsSettings : Value → Prop :=
  IsRecord [⟨"debug", IsTruth⟩, ⟨"keypause", IsTruth⟩, ⟨"quirks", IsVariant⟩]

def IsControl : Value → Prop :=
  IsRecord [⟨"flags", IsSettings⟩, ⟨"opcode", IsNatural 65536⟩, ⟨"cycle", IsNatural (2 ^ 64)⟩]

def IsMemory : Value → Prop :=
  IsRecord [⟨"memory", IsListOf (IsNatural 256)⟩]

def IsScreen : Value → Prop :=
  IsRecord [⟨"pixels", IsListOf IsTruth⟩]

def IsRegisters : Value → Prop :=
  IsRecord [
    ⟨"v", IsRowOf 16 (IsNatural 256)⟩, ⟨"i", IsNatural 65536⟩, ⟨"delay", IsNatural 256⟩,
    ⟨"sound", IsNatural 256⟩, ⟨"pc", IsNatural 65536⟩, ⟨"sp", IsNatural 65536⟩,
    ⟨"stack", IsRowOf 12 (IsNatural 65536)⟩, ⟨"keys", IsRowOf 16 IsTruth⟩]

def IsImage : Value → Prop :=
  IsRecord [
    ⟨"cpu", IsControl⟩, ⟨"mem", IsMemory⟩, ⟨"state", IsRegisters⟩, ⟨"screen", IsScreen⟩,
    ⟨"loaded", IsTruth⟩]

end Value

open Value

/-- **A type that is restored from the values of a description**, and from no others. -/
class ReadsExactly (α : Type) [Stored α] (shape : outParam (Value → Prop)) : Prop where
  isSome_iff : ∀ value : Value, value.Unrepeated →
    ((restore? value : Option α).isSome = true ↔ shape value)

/-! ### Plain types -/

instance : ReadsExactly Bool IsTruth where
  isSome_iff value _ := by
    cases value with
    | truth answer => exact ⟨fun _ => ⟨answer, rfl⟩, fun _ => rfl⟩
    | _ => exact ⟨nofun, nofun⟩

theorem Value.isSome_natural? (bound : Nat) (value : Value) :
    (value.natural? bound).isSome = true ↔ value.IsNatural bound := by
  cases value with
  | whole number =>
    by_cases range : 0 ≤ number ∧ number < bound
    · rw [natural?, if_pos range]
      refine ⟨fun _ => ⟨number.toNat, by omega, ?_⟩, fun _ => rfl⟩
      rw [Int.toNat_of_nonneg range.1]
    · rw [natural?, if_neg range]
      refine ⟨nofun, ?_⟩
      rintro ⟨natural, inside, same⟩
      cases same
      exact absurd ⟨by omega, by omega⟩ range
  | _ => exact ⟨nofun, nofun⟩

instance : ReadsExactly UInt8 (IsNatural 256) where
  isSome_iff value _ := Option.isSome_map.symm ▸ value.isSome_natural? 256

instance : ReadsExactly UInt16 (IsNatural 65536) where
  isSome_iff value _ := Option.isSome_map.symm ▸ value.isSome_natural? 65536

instance : ReadsExactly UInt64 (IsNatural (2 ^ 64)) where
  isSome_iff value _ := Option.isSome_map.symm ▸ value.isSome_natural? (2 ^ 64)

/-! ### Rows -/

section Rows

variable {α : Type} [Stored α]

theorem Value.length_of_restoreAll? {values : List Value} {items : List α}
    (read : restoreAll? values = some items) : items.length = values.length := by
  induction values generalizing items with
  | nil =>
    cases read
    rfl
  | cons value rest ih =>
    unfold restoreAll? at read
    split at read
    · rename_i others
      cases read
      rw [List.length_cons, List.length_cons, ih others]
    · cases read

variable {shape : Value → Prop} [ReadsExactly α shape]

theorem Value.isSome_restoreAll? {values : List Value} (each : ∀ value ∈ values, value.Unrepeated) :
    (restoreAll? values : Option (List α)).isSome = true ↔ ∀ value ∈ values, shape value := by
  induction values with
  | nil => exact ⟨fun _ => nofun, fun _ => rfl⟩
  | cons value rest ih =>
    have first := ReadsExactly.isSome_iff (α := α) value (each value List.mem_cons_self)
    have others := ih fun other member => each other (List.mem_cons_of_mem _ member)
    rw [List.forall_mem_cons, ← first, ← others]
    rw [restoreAll?]
    cases (restore? value : Option α) <;> cases (restoreAll? rest : Option (List α)) <;> simp

instance : ReadsExactly (List α) (IsListOf shape) where
  isSome_iff value unrepeated := by
    cases unrepeated with
    | list each =>
      refine (isSome_restoreAll? each).trans ⟨fun all => ⟨_, rfl, all⟩, ?_⟩
      rintro ⟨items, same, all⟩
      cases same
      exact all
    | _ => exact ⟨nofun, nofun⟩

instance : ReadsExactly (Array α) (IsListOf shape) where
  isSome_iff value unrepeated :=
    Option.isSome_map.symm ▸ ReadsExactly.isSome_iff (α := List α) value unrepeated

instance {size : Nat} : ReadsExactly (Vector α size) (IsRowOf size shape) where
  isSome_iff value unrepeated := by
    cases unrepeated with
    | list each =>
      rename_i values
      have all := isSome_restoreAll? (α := α) each
      show (match (restoreAll? values : Option (List α)).map List.toArray with
        | none => none
        | some found =>
          if length : found.size = size then some (Vector.mk found length) else none).isSome =
            true ↔ _
      cases read : (restoreAll? values : Option (List α)) with
      | none =>
        rw [read] at all
        refine ⟨nofun, ?_⟩
        rintro ⟨items, same, -, allowed⟩
        cases same
        exact absurd (all.mpr allowed) nofun
      | some found =>
        rw [read] at all
        have length := length_of_restoreAll? read
        simp only [Option.map_some, List.size_toArray, length]
        constructor
        · intro accepted
          split at accepted
          · rename_i fits
            exact ⟨values, rfl, fits, all.mp rfl⟩
          · cases accepted
        · rintro ⟨items, same, fits, -⟩
          cases same
          rw [dif_pos fits]
          rfl
    | _ => exact ⟨nofun, nofun⟩

end Rows

/-! ### Records -/

namespace Value

variable {fields : List Field} {entries : List (String × Value)}

/-- Whether a field is the first entry of its name, with a value that is allowed. -/
def Field.IsFirstIn (field : Field) (entries : List (String × Value)) : Prop :=
  ∃ value, entries.lookup field.name = some value ∧ field.allows value

theorem mem_of_lookup {name : String} {value : Value} (found : entries.lookup name = some value) :
    (name, value) ∈ entries := by
  obtain ⟨before, behind, same, -⟩ := List.lookup_eq_some_iff.mp found
  rw [same]
  exact List.mem_append_right _ List.mem_cons_self

theorem lookup_of_mem (names : (entries.map Prod.fst).Nodup) {name : String} {value : Value}
    (member : (name, value) ∈ entries) : entries.lookup name = some value := by
  induction entries with
  | nil => cases member
  | cons entry rest ih =>
    rw [List.map_cons, List.nodup_cons] at names
    rcases List.mem_cons.mp member with rfl | later
    · exact List.lookup_cons_self
    · have different : name ≠ entry.1 := fun same =>
        names.1 (same ▸ List.mem_map_of_mem (f := Prod.fst) later)
      rw [List.lookup_cons, beq_false_of_ne different]
      exact ih names.2 later

theorem Field.isFirstIn_cons_self (field : Field) (value : Value) :
    field.IsFirstIn ((field.name, value) :: entries) ↔ field.allows value := by
  unfold IsFirstIn
  rw [List.lookup_cons_self]
  simp

theorem Field.isFirstIn_cons_of_ne {field : Field} {name : String} (different : field.name ≠ name)
    (value : Value) : field.IsFirstIn ((name, value) :: entries) ↔ field.IsFirstIn entries := by
  unfold IsFirstIn
  rw [List.lookup_cons, beq_false_of_ne different]

/-- Values in order fit their fields just if each field is found among the named values. -/
theorem forall₂_allows_iff (names : (fields.map Field.name).Nodup) {items : List Value}
    (length : items.length = fields.length) :
    List.Forall₂ Field.allows fields items ↔
      ∀ field ∈ fields, field.IsFirstIn ((fields.map Field.name).zip items) := by
  induction fields generalizing items with
  | nil =>
    cases List.length_eq_zero_iff.mp length
    exact ⟨fun _ => nofun, fun _ => .nil⟩
  | cons field rest ih =>
    obtain ⟨value, others, rfl⟩ := List.exists_cons_of_length_eq_add_one length
    rw [List.map_cons, List.nodup_cons] at names
    rw [List.forall₂_cons, ih names.2 (Nat.succ.inj length), List.map_cons, List.zip_cons_cons,
      List.forall_mem_cons, field.isFirstIn_cons_self]
    refine and_congr_right fun _ => forall₂_congr ?_
    intro other member
    have different : other.name ≠ field.name := fun same =>
      names.1 (same ▸ List.mem_map_of_mem member)
    exact (Field.isFirstIn_cons_of_ne different value).symm

theorem record?_list_eq_some_iff {names : List String} {items : List Value} :
    (list items).record? names = some entries ↔
      items.length = names.length ∧ names.zip items = entries := by
  show (if items.length = names.length then some (names.zip items) else none) = some entries ↔ _
  split
  · rename_i same
    simp [same]
  · rename_i different
    simp [different]

/-- **A record is a value under whose named values every field is found.** -/
theorem isRecord_iff (names : (fields.map Field.name).Nodup) {value : Value}
    (unrepeated : value.Unrepeated) :
    IsRecord fields value ↔ ∃ entries, value.record? (fields.map Field.name) = some entries ∧
      ∀ field ∈ fields, field.IsFirstIn entries := by
  cases unrepeated with
  | @object entries distinct each =>
    constructor
    · rintro ⟨present⟩
      refine ⟨entries, rfl, ?_⟩
      intro field member
      obtain ⟨value, inside, allowed⟩ := present field member
      exact ⟨value, lookup_of_mem distinct inside, allowed⟩
    · rintro ⟨others, same, found⟩
      cases same
      apply IsRecord.byName
      intro field member
      obtain ⟨value, first, allowed⟩ := found field member
      exact ⟨value, mem_of_lookup first, allowed⟩
  | @list items each =>
    have length : (fields.map Field.name).length = fields.length := List.length_map _
    constructor
    · intro record
      cases record with
      | byPlace present =>
        have same : items.length = fields.length := present.length_eq.symm
        exact ⟨_, record?_list_eq_some_iff.mpr ⟨same.trans length.symm, rfl⟩,
          (forall₂_allows_iff names same).mp present⟩
    · rintro ⟨entries, zipped, found⟩
      obtain ⟨same, rfl⟩ := record?_list_eq_some_iff.mp zipped
      exact .byPlace ((forall₂_allows_iff names (same.trans length)).mpr found)
  | _ =>
    refine ⟨nofun, ?_⟩
    rintro ⟨entries, same, -⟩
    cases same

/-- The named values of a record repeat no name inside. -/
theorem Unrepeated.of_record? {value : Value} {names : List String} (unrepeated : value.Unrepeated)
    (found : value.record? names = some entries) : ∀ entry ∈ entries, entry.2.Unrepeated := by
  cases unrepeated with
  | object distinct each =>
    cases found
    exact each
  | list each =>
    obtain ⟨-, rfl⟩ := record?_list_eq_some_iff.mp found
    exact fun entry member => each entry.2 (List.of_mem_zip member).2
  | _ => cases found

end Value

section Records

variable {α β : Type} {fields : List Field} {entries : List (String × Value)}

/-- The first field of a record decides whether the others are read at all. -/
theorem isSome_field?_bind [Stored α] {shape : Value → Prop} [ReadsExactly α shape] {name : String}
    {rest : α → Option β} (each : ∀ entry ∈ entries, entry.2.Unrepeated)
    (others : ∀ value, (rest value).isSome = true ↔ ∀ field ∈ fields, field.IsFirstIn entries) :
    (field? entries name >>= rest).isSome = true ↔
      ∀ field ∈ ⟨name, shape⟩ :: fields, field.IsFirstIn entries := by
  rw [List.forall_mem_cons]
  unfold field? Field.IsFirstIn
  cases found : entries.lookup name with
  | none =>
    refine ⟨nofun, ?_⟩
    rintro ⟨⟨value, same, -⟩, -⟩
    cases same
  | some value =>
    have reads := ReadsExactly.isSome_iff (α := α) value (each _ (mem_of_lookup found))
    simp only [Option.bind_some, Option.some.injEq, exists_eq_left']
    rw [← reads]
    cases (restore? value : Option α) with
    | none => exact ⟨nofun, fun both => absurd both.1 nofun⟩
    | some result => exact (others result).trans ⟨fun all => ⟨rfl, all⟩, And.right⟩

/-- Behind the last field there is nothing left to read. -/
theorem isSome_pure (value : α) :
    (pure value : Option α).isSome = true ↔ ∀ field ∈ ([] : List Field), field.IsFirstIn entries :=
  ⟨fun _ => nofun, fun _ => rfl⟩

/-- **A record is restored just from the values that have its fields.** -/
theorem ReadsExactly.of_fields [Recorded α] (same : Recorded.names α = fields.map Field.name)
    (names : (fields.map Field.name).Nodup)
    (exactly : ∀ entries : List (String × Value), (∀ entry ∈ entries, entry.2.Unrepeated) →
      ((Recorded.ofEntries? entries : Option α).isSome = true ↔
        ∀ field ∈ fields, field.IsFirstIn entries)) :
    ReadsExactly α (IsRecord fields) where
  isSome_iff value unrepeated := by
    rw [isRecord_iff names unrepeated, ← same]
    show ((value.record? (Recorded.names α)).bind Recorded.ofEntries?).isSome = true ↔ _
    cases found : value.record? (Recorded.names α) with
    | none =>
      refine ⟨nofun, ?_⟩
      rintro ⟨entries, same, -⟩
      cases same
    | some entries =>
      refine (exactly entries (unrepeated.of_record? found)).trans ⟨fun all => ⟨_, rfl, all⟩, ?_⟩
      rintro ⟨others, same, all⟩
      cases same
      exact all

end Records

/-! ### Parts of a machine -/

instance : ReadsExactly Variant IsVariant :=
  .of_fields rfl (by decide) fun _ each =>
    isSome_field?_bind each fun _ => isSome_field?_bind each fun _ => isSome_pure _

instance : ReadsExactly Settings IsSettings :=
  .of_fields rfl (by decide) fun _ each =>
    isSome_field?_bind each fun _ => isSome_field?_bind each fun _ =>
    isSome_field?_bind each fun _ => isSome_pure _

instance : ReadsExactly Control IsControl :=
  .of_fields rfl (by decide) fun _ each =>
    isSome_field?_bind each fun _ => isSome_field?_bind each fun _ =>
    isSome_field?_bind each fun _ => isSome_pure _

instance : ReadsExactly Memory IsMemory :=
  .of_fields rfl (by decide) fun _ each => isSome_field?_bind each fun _ => isSome_pure _

instance : ReadsExactly Screen IsScreen :=
  .of_fields rfl (by decide) fun _ each => isSome_field?_bind each fun _ => isSome_pure _

instance : ReadsExactly Registers IsRegisters :=
  .of_fields rfl (by decide) fun _ each =>
    isSome_field?_bind each fun _ => isSome_field?_bind each fun _ =>
    isSome_field?_bind each fun _ => isSome_field?_bind each fun _ =>
    isSome_field?_bind each fun _ => isSome_field?_bind each fun _ =>
    isSome_field?_bind each fun _ => isSome_field?_bind each fun _ => isSome_pure _

instance : ReadsExactly Image IsImage :=
  .of_fields rfl (by decide) fun _ each =>
    isSome_field?_bind each fun _ => isSome_field?_bind each fun _ =>
    isSome_field?_bind each fun _ => isSome_field?_bind each fun _ =>
    isSome_field?_bind each fun _ => isSome_pure _

end ChipEight
