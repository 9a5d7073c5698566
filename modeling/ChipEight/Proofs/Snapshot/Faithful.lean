/-
**Saving and restoring is faithful.**

A part that is restored from its stored form equals the part that was saved, on any machine and with
memory and screen of any size. A value that stores no part changes nothing, and which values store one
is known by their shape (`Part.Accepts`):

* `restorePart_save`: the round trip;
* `restorePart_accepts_iff`: which values are accepted;
* `snapshots_are_faithful`: both, and that a restored machine goes on like the one that was saved, but
  for what later resets draw;
* `snapshots_miss_draws`: what a later reset draws is in no snapshot, and a record may also be stored
  as a list.
-/

import ChipEight.Proofs.Session.DrawnSources
import ChipEight.Proofs.Snapshot.Acceptance
import ChipEight.Proofs.Snapshot.RoundTrip

namespace ChipEight

namespace Part

/-- **The values that store a part.** -/
def Accepts : Part → Value → Prop
  | image => Value.IsImage
  | control => Value.IsControl
  | registers => Value.IsRegisters
  | memory => Value.IsMemory
  | screen => Value.IsScreen
  | settings => Value.IsSettings
  | variant => Value.IsVariant

instance : (part : Part) → LawfulStored part.Content
  | image => inferInstanceAs (LawfulStored Image)
  | control => inferInstanceAs (LawfulStored Control)
  | registers => inferInstanceAs (LawfulStored Registers)
  | memory => inferInstanceAs (LawfulStored Memory)
  | screen => inferInstanceAs (LawfulStored Screen)
  | settings => inferInstanceAs (LawfulStored Settings)
  | variant => inferInstanceAs (LawfulStored Variant)

instance : (part : Part) → ReadsExactly part.Content part.Accepts
  | image => inferInstanceAs (ReadsExactly Image Value.IsImage)
  | control => inferInstanceAs (ReadsExactly Control Value.IsControl)
  | registers => inferInstanceAs (ReadsExactly Registers Value.IsRegisters)
  | memory => inferInstanceAs (ReadsExactly Memory Value.IsMemory)
  | screen => inferInstanceAs (ReadsExactly Screen Value.IsScreen)
  | settings => inferInstanceAs (ReadsExactly Settings Value.IsSettings)
  | variant => inferInstanceAs (ReadsExactly Variant Value.IsVariant)

end Part

namespace Machine

variable (machine target : Machine) (part : Part) (value : Value) (source : RandomSource)

theorem part_replacePart (content : part.Content) :
    (machine.replacePart source part content).part part = content := by
  cases part <;> rfl

/-- **A part that was saved is restored as it was**, on any machine. -/
theorem restorePart_save :
    target.restorePart part (machine.save part) source =
      (true, target.replacePart source part (machine.part part)) := by
  unfold restorePart save
  rw [restore?_store]

/-- A machine that was restored as a whole has the image that was saved. -/
theorem restorePart_toImage :
    (target.restorePart .image (machine.save .image) source).2.toImage = machine.toImage := by
  rw [restorePart_save]
  rfl

theorem restorePart_accepts_iff (unrepeated : value.Unrepeated) :
    (machine.restorePart part value source).1 = true ↔ part.Accepts value := by
  rw [← ReadsExactly.isSome_iff (α := part.Content) value unrepeated]
  unfold restorePart
  cases (restore? value : Option part.Content) with
  | none => exact ⟨nofun, nofun⟩
  | some content => exact ⟨fun _ => rfl, fun _ => rfl⟩

theorem restorePart_rejected (rejected : (machine.restorePart part value source).1 = false) :
    (machine.restorePart part value source).2 = machine := by
  unfold restorePart at rejected ⊢
  cases found : (restore? value : Option part.Content) with
  | none => rfl
  | some content =>
    rw [found] at rejected
    cases rejected

/-- **Saving and restoring is faithful.** Every part of every machine is restored as it was saved, on
any machine. Once the two are reseeded alike, a machine that was restored as a whole answers and
reports what the saved one does in every further session and ends with the same image, as long as
nothing shows of the random bytes that later resets bring to each of them. A value is accepted just
if it has the shape of the part, and one that is not accepted changes nothing. -/
theorem snapshots_are_faithful (machine : Machine) :
    (∀ target part source,
      restorePart target part (machine.save part) source =
          (true, target.replacePart source part (machine.part part)) ∧
        (target.replacePart source part (machine.part part)).part part = machine.part part) ∧
    (∀ target source,
      let restored := (restorePart target .image (machine.save .image) source).2
      ∀ seed operations others,
        machine.SameButDrawn false (.reseed seed :: operations) (.reseed seed :: others) →
        (machine.performAll (.reseed seed :: operations)).answers =
            (restored.performAll (.reseed seed :: others)).answers ∧
          (machine.after (.reseed seed :: operations)).toImage =
            (restored.after (.reseed seed :: others)).toImage) ∧
    (∀ part value source, value.Unrepeated →
      ((machine.restorePart part value source).1 = true ↔ part.Accepts value)) ∧
    (∀ part value source, (machine.restorePart part value source).1 = false →
      (machine.restorePart part value source).2 = machine) := by
  refine ⟨?_, ?_, machine.restorePart_accepts_iff, machine.restorePart_rejected⟩
  · intro target part source
    exact ⟨machine.restorePart_save target part source, target.part_replacePart part source _⟩
  · intro target source _ seed operations others alike
    have same := (machine.restorePart_toImage target source).symm
    exact (Shares.of_image same).performAll alike

/-- A machine that waits for a key is restored on another one, and both are reset, take a byte under a
mask of zero and are reseeded before they show one. A variant with its fields in another order and one
more is accepted, and a value without fields is not. -/
theorem snapshots_are_faithful_waiting :
    let machine := (new (.ofSeed 7)).after [.setKey 5 true, .execute 0xf00a]
    let restored := ((new (.ofSeed 0)).restorePart .image (machine.save .image) (.ofSeed 3)).2
    let session (drawn : RandomSource) : List Operation :=
      [.reseed 5, .tick, .reset drawn, .execute 0xc000, .reseed 6, .execute 0xc0ff]
    let value : Value :=
      .object [("screen_wrap", .truth true), ("more", .null), ("dma_inc", .truth false)]
    machine.isWaiting = true ∧ restored.isWaiting = true ∧
      (machine.performAll (session (.ofSeed 1))).answers =
        (restored.performAll (session (.ofSeed 2))).answers ∧
      value.Unrepeated ∧ (machine.restorePart .variant value (.ofSeed 3)).1 = true ∧
      (machine.restorePart .variant .null (.ofSeed 3)).1 = false ∧
      (machine.restorePart .variant .null (.ofSeed 3)).2 = machine := by
  intro machine restored session value
  obtain ⟨restores, runs, accepts, keeps⟩ := snapshots_are_faithful machine
  have waits : restored.isWaiting = true := by
    show Machine.isWaiting (restorePart (new (.ofSeed 0)) .image _ (.ofSeed 3)).2 = true
    rw [(restores (new (.ofSeed 0)) .image (.ofSeed 3)).1]
    rfl
  have hidden : machine.SameButDrawn false (session (.ofSeed 1)) (session (.ofSeed 2)) :=
    .cons (fun _ => Operation.hidesRandom_reseed _ 5) <| .cons nofun <| .reset (.reset _ _) <|
      .cons (fun _ => Operation.hidesRandom_execute _ rfl) <|
      .cons (fun _ => Operation.hidesRandom_reseed _ 6) <| .cons nofun .nil
  have unrepeated : value.Unrepeated := by
    refine .object (by decide) ?_
    simp only [List.forall_mem_cons]
    exact ⟨.truth true, .null, .truth false, nofun⟩
  have shape : Part.variant.Accepts value := by
    refine .byName ?_
    simp only [List.forall_mem_cons]
    exact ⟨⟨.truth false, by simp, false, rfl⟩, ⟨.truth true, by simp, true, rfl⟩, nofun⟩
  exact ⟨rfl, waits, (runs (new (.ofSeed 0)) (.ofSeed 3) 5 _ _ hidden).1, unrepeated,
    (accepts .variant value (.ofSeed 3) unrepeated).mpr shape, rfl, keeps .variant .null (.ofSeed 3) rfl⟩

/-- **What a later reset draws is in no snapshot.** A machine and its restored copy are reseeded alike
and reset. A random byte that each of them takes then comes from a source of its own. A variant is also
accepted from a list, which has no names of fields. -/
theorem snapshots_miss_draws :
    let machine := new (.ofSeed 0)
    let restored := (machine.restorePart .image (machine.save .image) (.ofSeed 0)).2
    let session (drawn : RandomSource) : List Operation :=
      [.reseed 5, .reset drawn, .execute 0xc0ff]
    restored.toImage = machine.toImage ∧
      (machine.after (session (.ofSeed 0))).get 0 = 0x7f ∧
      (restored.after (session (.ofSeed 1))).get 0 = 0x61 ∧
      (machine.after (session (.ofSeed 0))).toImage ≠
        (restored.after (session (.ofSeed 1))).toImage ∧
      (machine.restorePart .variant (.list [.truth false, .truth true]) (.ofSeed 0)).1 = true := by
  intro machine restored session
  have whole : restored = machine := by
    show (machine.restorePart .image (machine.save .image) (.ofSeed 0)).2 = machine
    rw [restorePart_save]
    rfl
  have first : (machine.after (session (.ofSeed 0))).get 0 = 0x7f := by decide +kernel
  have second : (restored.after (session (.ofSeed 1))).get 0 = 0x61 := by
    rw [whole]
    decide +kernel
  refine ⟨congrArg Machine.toImage whole, first, second, fun same => ?_, rfl⟩
  have alike :
      (machine.after (session (.ofSeed 0))).get 0 = (restored.after (session (.ofSeed 1))).get 0 :=
    congrArg (·.registers.get 0) same
  rw [first, second] at alike
  exact absurd alike (by decide)

end Machine

end ChipEight
