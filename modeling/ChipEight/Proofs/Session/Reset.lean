/-
**A reset leaves no trace.**

A reset keeps the sizes of memory and screen, the debugging and the variant, and a reachable machine
has the standard sizes. So after a reset nothing tells it from a new machine with the same debugging
and variant:

* `reset_toImage`: the two have the same image, and `isCleared_fresh`: in it everything is zero;
* `reset_leaves_no_trace`: the same of every reachable machine, and that a session which begins with a
  reseed tells the two apart only by what another reset draws;
* `reset_again_leaves_trace`: what another reset draws does tell them apart.
-/

import ChipEight.Proofs.Session.DrawnSources
import ChipEight.Proofs.Session.Sizes

namespace ChipEight

theorem Memory.erase_eq_blank {memory : Memory} (size : memory.size = standardSize) :
    memory.erase = .blank := by
  unfold erase blank
  rw [size]

theorem Screen.erase_eq_blank {screen : Screen} (size : screen.size = standardSize) :
    screen.erase = .blank := by
  unfold erase blank
  rw [size]

/-- **An image on which nothing was done**, apart from its debugging and its variant. -/
structure Image.IsCleared (image : Image) : Prop where
  running : image.control.settings.waiting = false
  lastWord : image.control.lastWord = 0
  cycles : image.control.cycles = 0
  unloaded : image.loaded = false
  memory : ∀ address < 4096, image.memory.byte? address = some 0
  bytes : ∀ register, image.registers.get register = 0
  index : image.registers.index = 0
  delay : image.registers.delay = 0
  sound : image.registers.sound = 0
  counter : image.registers.pc = 0
  pointer : image.registers.sp = 0
  stack : ∀ slot, image.registers.stack.get slot = 0
  keys : ∀ key, image.registers.isDown key = false
  pixels : ∀ index < 2048, image.screen.pixel? index = some false

namespace Machine

/-- A new machine with the debugging and the variant of this one. -/
def fresh (machine : Machine) (source : RandomSource) : Machine :=
  { new source with
    control.settings.debug := machine.control.settings.debug
    control.settings.variant := machine.control.settings.variant }

variable {machine : Machine}

theorem isCleared_fresh (machine : Machine) (source : RandomSource) :
    (machine.fresh source).toImage.IsCleared where
  running := rfl
  lastWord := rfl
  cycles := rfl
  unloaded := rfl
  memory _ inside := Array.getElem?_replicate.trans (if_pos inside)
  bytes register := Vector.getElem_replicate register.isLt
  index := rfl
  delay := rfl
  sound := rfl
  counter := rfl
  pointer := rfl
  stack slot := Vector.getElem_replicate slot.isLt
  keys key := Vector.getElem_replicate key.isLt
  pixels _ inside := Array.getElem?_replicate.trans (if_pos inside)

/-- A reset machine of the standard sizes has the image of a new one. -/
theorem reset_toImage (sizes : machine.sizes = standardSizes) (first second : RandomSource) :
    (machine.reset first).toImage = (machine.fresh second).toImage := by
  obtain ⟨memory, screen⟩ := Prod.mk.inj sizes
  show Image.mk _ machine.memory.erase _ machine.screen.erase _ = _
  rw [Memory.erase_eq_blank memory, Screen.erase_eq_blank screen]
  rfl

/-- **A reset leaves no trace.** After a reset a reachable machine has the image of a new one with the
same debugging and variant, in which all else is zero. If the two are then reseeded alike, they answer
and report the same in every further session and end with the same image, as long as nothing shows of
the random bytes that later resets bring to each of them. -/
theorem reset_leaves_no_trace (reached : machine.Reachable) (first second : RandomSource) :
    let reset := machine.reset first
    let fresh := machine.fresh second
    reset.toImage = fresh.toImage ∧ reset.toImage.IsCleared ∧
      ∀ seed operations others,
        reset.SameButDrawn false (.reseed seed :: operations) (.reseed seed :: others) →
        (reset.performAll (.reseed seed :: operations)).answers =
            (fresh.performAll (.reseed seed :: others)).answers ∧
          (reset.after (.reseed seed :: operations)).toImage =
            (fresh.after (.reseed seed :: others)).toImage := by
  intro reset fresh
  have same : reset.toImage = fresh.toImage := reset_toImage reached.sizes first second
  refine ⟨same, ?_, fun _ _ _ alike => (Shares.of_image same).performAll alike⟩
  rw [same]
  exact machine.isCleared_fresh second

/-- A machine that reports its instructions, holds a key down and waits for another one. After the reset
it is reset again, takes a byte under a mask of zero, and is reseeded before it shows one. -/
theorem reset_leaves_no_trace_waiting :
    let machine := (new (.ofSeed 7)).after [.toggleDebug, .setKey 5 true, .execute 0xf00a]
    let session (drawn : RandomSource) : List Operation :=
      [.reseed 5, .reset drawn, .execute 0xc000, .reseed 6, .execute 0xc0ff]
    machine.Reachable ∧ machine.isWaiting = true ∧ machine.registers.isDown 5 = true ∧
      (machine.reset (.ofSeed 1)).toImage = (machine.fresh (.ofSeed 2)).toImage ∧
      (machine.fresh (.ofSeed 2)).control.settings.debug = true ∧
      ((machine.reset (.ofSeed 1)).after (session (.ofSeed 3))).toImage =
        ((machine.fresh (.ofSeed 2)).after (session (.ofSeed 4))).toImage := by
  intro machine session
  have reached : machine.Reachable := (Reachable.new (.ofSeed 7)).after _
  obtain ⟨same, -, runs⟩ := reset_leaves_no_trace reached (.ofSeed 1) (.ofSeed 2)
  have hidden : (machine.reset (.ofSeed 1)).SameButDrawn false (session (.ofSeed 3))
      (session (.ofSeed 4)) :=
    .cons (fun _ => Operation.hidesRandom_reseed _ 5) <| .reset (.reset _ _) <|
      .cons (fun _ => Operation.hidesRandom_execute _ rfl) <|
      .cons (fun _ => Operation.hidesRandom_reseed _ 6) <| .cons nofun .nil
  exact ⟨reached, rfl, rfl, same, rfl, (runs 5 _ _ hidden).2⟩

/-- **What another reset draws leaves a trace.** Two machines with the same image are reseeded alike and
reset once more. A random byte that each of them takes then comes from a source of its own. -/
theorem reset_again_leaves_trace :
    let machine := new (.ofSeed 0)
    let reset := machine.reset (.ofSeed 0)
    let fresh := machine.fresh (.ofSeed 0)
    let session (drawn : RandomSource) : List Operation :=
      [.reseed 5, .reset drawn, .execute 0xc0ff]
    machine.Reachable ∧ reset.toImage = fresh.toImage ∧
      (reset.after (session (.ofSeed 0))).get 0 = 0x7f ∧
      (fresh.after (session (.ofSeed 1))).get 0 = 0x61 ∧
      (reset.after (session (.ofSeed 0))).toImage ≠ (fresh.after (session (.ofSeed 1))).toImage := by
  intro machine reset fresh session
  have reached : machine.Reachable := .new (.ofSeed 0)
  have first : (reset.after (session (.ofSeed 0))).get 0 = 0x7f := by decide +kernel
  have second : (fresh.after (session (.ofSeed 1))).get 0 = 0x61 := by decide +kernel
  refine ⟨reached, reset_toImage reached.sizes _ _, first, second, fun same => ?_⟩
  have alike : (reset.after (session (.ofSeed 0))).get 0 = (fresh.after (session (.ofSeed 1))).get 0 :=
    congrArg (·.registers.get 0) same
  rw [first, second] at alike
  exact absurd alike (by decide)

end Machine

end ChipEight
