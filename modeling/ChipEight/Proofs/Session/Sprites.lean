/-
**Drawing several sprites.**

A sprite is drawn by two words: the first points the index register at it, the second draws it. While
memory holds all its rows and its coordinates do not lie in the flag, only the screen and the flag
remember that it was drawn, so several sprites draw like one with the targets of all:

* `draw_inside`: the effect of a drawing, by the law of drawing, and `execute_draw`, that of the
  second word;
* `draws_sprite`: one sprite; `draws_all`: any number of them, one after the other, by
  `Drawn.trans`;
* `sprites_commute`: their order does not matter, and drawing a sprite twice undoes it.
-/

import Mathlib.Data.List.Perm.Basic
import ChipEight.Proofs.Drawing
import ChipEight.Proofs.Instruction.Reading
import ChipEight.Proofs.Registers
import ChipEight.Proofs.Session.Basic

namespace ChipEight

/-! ### Sprites as words -/

/-- Whether a word draws a sprite and does not take its coordinates from the flag. -/
structure Word.DrawsAside (word : Word) : Prop where
  family : word.family = 0xd
  column : word.x ≠ Registers.flag
  line : word.y ≠ Registers.flag

/-- The two words that draw a sprite. -/
structure SpriteWords where
  /-- Sets the index register. -/
  place : Word
  /-- Draws what the index register points at. -/
  draw : Word

namespace SpriteWords

/-- Executes the two words of a sprite. -/
def operations (sprite : SpriteWords) : List Operation :=
  [.execute sprite.place, .execute sprite.draw]

/-- Draws sprites one after the other. -/
def drawAll (sprites : List SpriteWords) : List Operation :=
  sprites.flatMap operations

/-- Whether two words draw a sprite of which memory holds all rows. -/
structure Within (sprite : SpriteWords) (memory : Memory) : Prop where
  places : sprite.place.family = 0xa
  draws : sprite.draw.DrawsAside
  inside : sprite.place.address.toNat + sprite.draw.n ≤ memory.size

end SpriteWords

/-- Whether a bit is set in some byte of a range. -/
def Memory.HasSetBit (memory : Memory) (start count : Nat) : Prop :=
  ∃ offset < count, ∃ byte, memory.byte? (start + offset) = some byte ∧ byte ≠ 0

namespace Machine

/-- The targets of the sprite at an address, if a word draws it. -/
def spriteTargets (machine : Machine) (start : Nat) (word : Word) : List Nat :=
  Sprite.targets machine.variant.wrapSprites (machine.get word.x).toNat (machine.get word.y).toNat
    (machine.memory.available start word.n)

variable {machine other : Machine} {word : Word}

theorem spriteTargets_inside (full : machine.screen.size = Screen.standardSize) (start : Nat)
    (word : Word) : ∀ index ∈ machine.spriteTargets start word, index < machine.screen.size := by
  rw [full]
  exact Sprite.targets_lt _ _ _ _

/-- A sprite has a target exactly if it has a set bit. -/
theorem spriteTargets_ne_nil_iff (machine : Machine) (start : Nat) (word : Word) :
    machine.spriteTargets start word ≠ [] ↔ machine.memory.HasSetBit start word.n := by
  rw [spriteTargets, ne_eq, Sprite.targets_eq_nil_iff]
  simp only [Memory.mem_available_iff, Memory.HasSetBit]
  constructor
  · intro some
    by_contra none
    refine some fun row ⟨offset, near, found⟩ => ?_
    by_contra set
    exact none ⟨offset, near, row, found, set⟩
  · rintro ⟨offset, near, row, found, set⟩ none
    exact set (none row ⟨offset, near, found⟩)

/-! ### Drawing one sprite -/

/-- The number of rows that a word draws: all rows of its sprite, or those before the end of
memory. -/
def rowsDrawn (machine : Machine) (word : Word) : Nat :=
  if machine.registers.index.toNat + word.n ≤ machine.memory.size then word.n
  else machine.memory.size - machine.registers.index.toNat

/-- **A drawing whose targets are all on the screen** draws the rows that memory holds, and fails if
these are not all. -/
theorem draw_inside
    (inside : ∀ index ∈ machine.spriteTargets machine.registers.index.toNat word,
      index < machine.screen.size) :
    machine.draw word.x word.y word.n =
      ⟨if machine.rowsDrawn word = word.n then .ok () else .error .outOfBounds,
        { machine with
          screen := machine.screen.flipped
            (machine.spriteTargets machine.registers.index.toNat word)
          registers := machine.registers.raiseFlagIf
            (machine.screen.Collides (machine.spriteTargets machine.registers.index.toNat word)) },
        []⟩ := by
  have drawn := machine.screen.flipAll_inside inside
  have whole : (machine.memory.available machine.registers.index.toNat word.n).length = word.n ↔
      machine.rowsDrawn word = word.n := by
    rw [Memory.length_available, rowsDrawn]
    split <;> omega
  unfold spriteTargets at drawn ⊢
  simp only [draw, drawn, Bool.true_and, beq_iff_eq, whole]
  split <;> rfl

/-- A drawing on a screen of standard size. -/
theorem draw_full (full : machine.screen.size = Screen.standardSize) :
    machine.draw word.x word.y word.n =
      ⟨if machine.rowsDrawn word = word.n then .ok () else .error .outOfBounds,
        { machine with
          screen := machine.screen.flipped
            (machine.spriteTargets machine.registers.index.toNat word)
          registers := machine.registers.raiseFlagIf
            (machine.screen.Collides (machine.spriteTargets machine.registers.index.toNat word)) },
        []⟩ :=
  draw_inside (spriteTargets_inside full machine.registers.index.toNat word)

theorem execute_eq_draw (family : word.family = 0xd) :
    machine.execute word = (machine.note word).draw word.x word.y word.n := by
  have low := word.n_lt
  rw [execute, perform_of_reads (.draw family), draw_meaning _ word.x word.y (by omega)]

/-- **A word that draws a sprite** of which memory holds all rows. -/
theorem execute_draw (full : machine.screen.size = Screen.standardSize) (family : word.family = 0xd)
    (inside : machine.registers.index.toNat + word.n ≤ machine.memory.size) :
    machine.execute word = .done () { machine.note word with
      screen := machine.screen.flipped
        (machine.spriteTargets machine.registers.index.toNat word)
      registers := machine.registers.raiseFlagIf
        (machine.screen.Collides (machine.spriteTargets machine.registers.index.toNat word)) } := by
  have whole : (machine.note word).rowsDrawn word = word.n := if_pos inside
  rw [(execute_eq_draw family).trans (draw_full full), if_pos whole]
  rfl

/-! ### Drawing, one sprite after the other -/

/-- What remains of drawing at some targets: the screen, the flag, and whatever else a sprite does
not depend on. -/
structure Drawn (targets : List Nat) (before after : Machine) : Prop where
  screen : after.screen = before.screen.flipped targets
  bytes : after.registers.v = (before.registers.raiseFlagIf (before.screen.Collides targets)).v
  memory : after.memory = before.memory
  settings : after.control.settings = before.control.settings

namespace Drawn

variable {before between after : Machine} {targets others : List Nat}

theorem nothing (screen : after.screen = before.screen)
    (bytes : after.registers.v = before.registers.v) (memory : after.memory = before.memory)
    (settings : after.control.settings = before.control.settings) : Drawn [] before after where
  screen := screen.trans before.screen.flipped_nil.symm
  bytes := bytes
  memory := memory
  settings := settings

theorem size (drawn : Drawn targets before after) : after.screen.size = before.screen.size := by
  rw [drawn.screen, Screen.size_flipped]

theorem get (drawn : Drawn targets before after) {register : Fin 16}
    (noFlag : register ≠ Registers.flag) : after.get register = before.get register := by
  have same : after.get register =
      (before.registers.raiseFlagIf (before.screen.Collides targets)).get register :=
    congrArg (·.get register) drawn.bytes
  exact same.trans (Registers.get_raiseFlagIf_of_ne _ _ noFlag)

theorem flag_of_collision (drawn : Drawn targets before after)
    (collision : before.screen.Collides targets) : after.get Registers.flag = 1 := by
  unfold Machine.get Registers.get
  rw [drawn.bytes, decide_eq_true collision]
  exact Registers.get_set_self ..

theorem flag_of_none (drawn : Drawn targets before after)
    (none : ¬ before.screen.Collides targets) :
    after.get Registers.flag = before.get Registers.flag := by
  unfold Machine.get Registers.get
  rw [drawn.bytes, decide_eq_false none]
  rfl

/-- **What a sprite draws does not depend on the sprites before it.** -/
theorem spriteTargets (drawn : Drawn targets before after) {word : Word} (aside : word.DrawsAside)
    (start : Nat) : after.spriteTargets start word = before.spriteTargets start word := by
  unfold Machine.spriteTargets variant
  rw [drawn.settings, drawn.memory, drawn.get aside.column, drawn.get aside.line]

/-- **Two drawings are one.** -/
theorem trans (first : Drawn targets before between) (second : Drawn others between after)
    (inside : ∀ index ∈ targets, index < before.screen.size) :
    Drawn (targets ++ others) before after where
  screen := by rw [second.screen, first.screen, Screen.flipped_flipped]
  bytes := by
    rw [second.bytes, Registers.raiseFlagIf_congr first.bytes, Registers.raiseFlagIf_raiseFlagIf,
      first.screen]
    simp only [Screen.collides_append_iff _ inside, Bool.decide_or]
  memory := second.memory.trans first.memory
  settings := second.settings.trans first.settings

end Drawn

/-- Operations that succeed and draw at some targets. -/
structure Draws (machine : Machine) (operations : List Operation) (targets : List Nat) : Prop where
  quiet : machine.Quiet operations
  drawn : Drawn targets machine (machine.after operations)

namespace Draws

theorem of_execute {after : Machine} {targets : List Nat}
    (executed : machine.execute word = .done () after) (drawn : Drawn targets machine after) :
    Draws machine [.execute word] targets := by
  obtain ⟨quiet, left⟩ := quiet_execute executed
  refine ⟨quiet, ?_⟩
  rw [left]
  exact drawn

theorem append {operations behind : List Operation} {targets others : List Nat}
    (first : Draws machine operations targets)
    (second : Draws (machine.after operations) behind others)
    (inside : ∀ index ∈ targets, index < machine.screen.size) :
    Draws machine (operations ++ behind) (targets ++ others) where
  quiet := first.quiet.append second.quiet
  drawn := by
    rw [after_append]
    exact first.drawn.trans second.drawn inside

end Draws

/-- The word that draws a sprite, executed alone, leaves the index register. -/
theorem draws_word (machine : Machine) (word : Word)
    (full : machine.screen.size = Screen.standardSize) (family : word.family = 0xd)
    (inside : machine.registers.index.toNat + word.n ≤ machine.memory.size) :
    Draws machine [.execute word]
        (machine.spriteTargets machine.registers.index.toNat word) ∧
      (machine.after [.execute word]).registers.index = machine.registers.index := by
  have executed := execute_draw full family inside
  refine ⟨.of_execute executed ⟨rfl, rfl, rfl, rfl⟩, ?_⟩
  show (machine.execute word).machine.registers.index = _
  rw [executed]
  exact Registers.index_raiseFlagIf _ _

/-- **Drawing one sprite.** -/
theorem draws_sprite {sprite : SpriteWords} (full : machine.screen.size = Screen.standardSize)
    (within : sprite.Within machine.memory) :
    Draws machine sprite.operations
      (machine.spriteTargets sprite.place.address.toNat sprite.draw) := by
  have placed : machine.execute sprite.place = .done () { machine.note sprite.place with
      registers := { machine.registers with index := sprite.place.address } } :=
    perform_of_reads (.setIndex within.places)
  have first : Draws machine [.execute sprite.place] [] :=
    .of_execute placed (.nothing rfl rfl rfl rfl)
  have index : (machine.after [.execute sprite.place]).registers.index = sprite.place.address := by
    show (machine.execute sprite.place).machine.registers.index = _
    rw [placed]
    rfl
  have inside : (machine.after [.execute sprite.place]).registers.index.toNat + sprite.draw.n ≤
      (machine.after [.execute sprite.place]).memory.size := by
    rw [index, first.drawn.memory]
    exact within.inside
  obtain ⟨second, -⟩ := draws_word _ sprite.draw (first.drawn.size.trans full) within.draws.family
    inside
  rw [index, first.drawn.spriteTargets within.draws] at second
  exact first.append second (by simp)

/-- The targets of several sprites. -/
def allTargets (machine : Machine) (sprites : List SpriteWords) : List Nat :=
  sprites.flatMap fun sprite => machine.spriteTargets sprite.place.address.toNat sprite.draw

/-- **Drawing several sprites** is drawing at the targets of all. -/
theorem draws_all {sprites : List SpriteWords} (full : machine.screen.size = Screen.standardSize)
    (within : ∀ sprite ∈ sprites, sprite.Within machine.memory) :
    Draws machine (SpriteWords.drawAll sprites) (machine.allTargets sprites) := by
  induction sprites generalizing machine with
  | nil => exact ⟨rfl, .nothing rfl rfl rfl rfl⟩
  | cons sprite rest ih =>
    have first := draws_sprite full (within sprite List.mem_cons_self)
    have behind : ∀ other ∈ rest, other.Within machine.memory :=
      fun other member => within other (List.mem_cons_of_mem _ member)
    have second := ih (first.drawn.size.trans full) (by rw [first.drawn.memory]; exact behind)
    -- the sprites behind the first one draw what they would have drawn without it
    have targets : (machine.after sprite.operations).allTargets rest = machine.allTargets rest :=
      List.flatMap_congr fun other member => first.drawn.spriteTargets (behind other member).draws _
    rw [targets] at second
    exact first.append second (spriteTargets_inside full _ _)

/-! ### Orders and repetitions -/

theorem allTargets_perm (machine : Machine) {sprites permuted : List SpriteWords}
    (perm : sprites.Perm permuted) :
    (machine.allTargets sprites).Perm (machine.allTargets permuted) :=
  perm.flatMap_right _

/-- **Drawing a sprite twice** is drawing at each of its targets twice. -/
theorem draws_twice (full : machine.screen.size = Screen.standardSize) (aside : word.DrawsAside)
    (inside : machine.registers.index.toNat + word.n ≤ machine.memory.size) :
    Draws machine [.execute word, .execute word]
      (machine.spriteTargets machine.registers.index.toNat word ++
        machine.spriteTargets machine.registers.index.toNat word) := by
  obtain ⟨first, index⟩ := draws_word machine word full aside.family inside
  have stillInside : (machine.after [.execute word]).registers.index.toNat + word.n ≤
      (machine.after [.execute word]).memory.size := by
    rw [index, first.drawn.memory]
    exact inside
  obtain ⟨second, -⟩ := draws_word _ word (first.drawn.size.trans full) aside.family stillInside
  rw [index, first.drawn.spriteTargets aside] at second
  exact first.append second (spriteTargets_inside full _ _)

/-- **Sprites commute, and cancel.** Drawing them in another order succeeds as well and leaves the
same screen and the same byte registers. Drawing one twice leaves the screen as it was, and raises
the flag exactly if the sprite has a set bit. -/
theorem sprites_commute {sprites permuted : List SpriteWords}
    (full : machine.screen.size = Screen.standardSize)
    (within : ∀ sprite ∈ sprites, sprite.Within machine.memory)
    (perm : sprites.Perm permuted) :
    (machine.Quiet (SpriteWords.drawAll sprites) ∧
      machine.Quiet (SpriteWords.drawAll permuted) ∧
      (machine.after (SpriteWords.drawAll permuted)).screen =
        (machine.after (SpriteWords.drawAll sprites)).screen ∧
      (machine.after (SpriteWords.drawAll permuted)).registers.v =
        (machine.after (SpriteWords.drawAll sprites)).registers.v) ∧
    ∀ word : Word, word.DrawsAside →
      machine.registers.index.toNat + word.n ≤ machine.memory.size →
        machine.Quiet [.execute word, .execute word] ∧
          (machine.after [.execute word, .execute word]).screen = machine.screen ∧
          (machine.memory.HasSetBit machine.registers.index.toNat word.n →
            (machine.after [.execute word, .execute word]).get Registers.flag = 1) ∧
          (¬ machine.memory.HasSetBit machine.registers.index.toNat word.n →
            (machine.after [.execute word, .execute word]).get Registers.flag =
              machine.get Registers.flag) := by
  constructor
  · have permutedWithin : ∀ sprite ∈ permuted, sprite.Within machine.memory :=
      fun sprite member => within sprite (perm.mem_iff.mpr member)
    obtain ⟨quiet, drawn⟩ := draws_all full within
    obtain ⟨permutedQuiet, permutedDrawn⟩ := draws_all full permutedWithin
    have targets := machine.allTargets_perm perm
    refine ⟨quiet, permutedQuiet, ?_, ?_⟩
    · rw [drawn.screen, permutedDrawn.screen, Screen.flipped_perm _ targets]
    · rw [drawn.bytes, permutedDrawn.bytes]
      simp only [Screen.collides_perm _ targets]
  · intro word aside inside
    obtain ⟨quiet, drawn⟩ := draws_twice full aside inside
    have collides := (machine.screen.collides_twice _).trans
      (machine.spriteTargets_ne_nil_iff machine.registers.index.toNat word)
    refine ⟨quiet, drawn.screen.trans (Screen.flipped_twice ..), fun set => ?_, fun unset => ?_⟩
    · exact drawn.flag_of_collision (collides.mpr set)
    · exact drawn.flag_of_none (mt collides.mp unset)

/-- Two overlapping sprites of one row in both orders, and the second of them twice. -/
theorem sprites_commute_overlapping :
    let machine := { new (.ofSeed 0) with
      memory := ⟨#[0x80, 0xc0]⟩
      registers := { Registers.blank with index := 1 } }
    let first : SpriteWords := ⟨0xa000, 0xd011⟩
    let second : SpriteWords := ⟨0xa001, 0xd011⟩
    (machine.after (SpriteWords.drawAll [second, first])).screen =
        (machine.after (SpriteWords.drawAll [first, second])).screen ∧
      (machine.after (SpriteWords.drawAll [second, first])).registers.v =
        (machine.after (SpriteWords.drawAll [first, second])).registers.v ∧
      (machine.after [.execute 0xd011, .execute 0xd011]).screen = machine.screen ∧
      (machine.after [.execute 0xd011, .execute 0xd011]).get Registers.flag = 1 := by
  intro machine first second
  have aside : Word.DrawsAside 0xd011 := ⟨by decide, by decide, by decide⟩
  have within : ∀ sprite ∈ [first, second], sprite.Within machine.memory := by
    intro sprite member
    rcases List.mem_pair.mp member with rfl | rfl
    · exact ⟨by decide, aside, by decide⟩
    · exact ⟨by decide, aside, by decide⟩
  have full : machine.screen.size = Screen.standardSize := Array.size_replicate
  obtain ⟨⟨-, -, screens, bytes⟩, twice⟩ :=
    sprites_commute full within (List.Perm.swap second first [])
  obtain ⟨-, screen, flag, -⟩ := twice 0xd011 aside (by decide)
  exact ⟨screens, bytes, screen, flag ⟨0, by decide, 0xc0, rfl, by decide⟩⟩

end Machine

end ChipEight
