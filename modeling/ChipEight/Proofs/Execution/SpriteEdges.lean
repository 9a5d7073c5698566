/-
**How sprites run on at the edges.**

A sprite that wraps around comes back on its own line, one that runs on through the row of all pixels
comes back a line lower (`Sprite.target_runningOn`). So the two ways differ only where a set bit
passes the right edge:

* `Sprite.targets_congr`: sprites whose set bits land on the same pixels have the same targets;
* `Sprite.Coincides`: the places past the edges, and those at which a sprite is drawn all the same;
* `Screen.turnsOff_flipped_iff`: a collision, said by the screens before and after a drawing;
* `DrawsAlike.screen_execute`: the same sprite in places that coincide;
* `execute_wrapping`: both ways to run on, for a sprite that stays in front of the right edge;
* `draw_past_edges`: where bits land, which drawings are equal, and when both ways agree.
-/

import ChipEight.Proofs.Execution.ParallelDrawing

namespace ChipEight

/-! ### Targets past the edges -/

namespace Sprite

/-- **Without wrapping, a pixel past the right edge is on the next line**, and so on. -/
theorem target_runningOn (column line : Nat) :
    target false column line =
      Screen.index (column % 64) ((line + column / 64) % 32) := by
  show (line * 64 + column) % 2048 = (line + column / 64) % 32 * 64 + column % 64
  omega

/-- Up to the right edge both ways to run on have the same targets. -/
theorem target_of_lt {column : Nat} (onScreen : column < 64) (wrap other : Bool) (line : Nat) :
    target wrap column line = target other column line := by
  have agree : target true column line = target false column line := by
    show line % 32 * 64 + column % 64 = (line * 64 + column) % 2048
    omega
  cases wrap <;> cases other
  · rfl
  · exact agree.symm
  · exact agree
  · rfl

/-- **A sprite has the same targets in two places** if each set bit of it lands on the same pixel. -/
theorem targets_congr {wrap other : Bool} {column line otherColumn otherLine : Nat}
    {rows : List UInt8}
    (same : ∀ row byte, rows[row]? = some byte → ∀ bit < 8, isSet byte bit = true →
      target wrap (column + bit) (line + row) = target other (otherColumn + bit) (otherLine + row)) :
    targets wrap column line rows = targets other otherColumn otherLine rows := by
  induction rows generalizing line otherLine with
  | nil => rfl
  | cons first rest ih =>
    have here : rowTargets wrap column line first = rowTargets other otherColumn otherLine first := by
      refine List.map_congr_left fun bit member => ?_
      obtain ⟨inRow, set⟩ := (mem_setBits_iff first bit).mp member
      exact same 0 first rfl bit inRow set
    have below := @ih (line + 1) (otherLine + 1) fun row byte found bit inRow set => by
      have lands := same (row + 1) byte found bit inRow set
      rwa [← Nat.add_assoc, ← Nat.add_assoc, Nat.add_right_comm line, Nat.add_right_comm otherLine]
        at lands
    rw [targets, targets, here, below]

/-- **Places past an edge**, given by a column and a line, and those at which a sprite is drawn all
the same. -/
inductive Coincides : Bool → Nat × Nat → Nat × Nat → Prop
  /-- A sprite that runs on through all pixels comes back on the next line. -/
  | nextLine (column line : Nat) : Coincides false (column + 64, line) (column, line + 1)
  /-- A sprite that wraps around comes back on its own line. -/
  | ownLine (column line : Nat) : Coincides true (column + 64, line) (column, line)
  /-- Either way the first line follows the last one. -/
  | firstLine (wrap : Bool) (column line : Nat) : Coincides wrap (column, line + 32) (column, line)

/-- A cell of a sprite lands on the same pixel from both places. -/
theorem Coincides.target {wrap : Bool} {place other : Nat × Nat}
    (coincides : Coincides wrap place other) (row bit : Nat) :
    target wrap (place.1 + bit) (place.2 + row) = target wrap (other.1 + bit) (other.2 + row) := by
  cases coincides with
  | nextLine column line =>
    show ((line + row) * 64 + (column + 64 + bit)) % 2048 =
      ((line + 1 + row) * 64 + (column + bit)) % 2048
    congr 1
    omega
  | ownLine column line =>
    show (line + row) % 32 * 64 + (column + 64 + bit) % 64 =
      (line + row) % 32 * 64 + (column + bit) % 64
    omega
  | firstLine wrap column line =>
    cases wrap with
    | false =>
      show ((line + 32 + row) * 64 + (column + bit)) % 2048 =
        ((line + row) * 64 + (column + bit)) % 2048
      omega
    | true =>
      show (line + 32 + row) % 32 * 64 + (column + bit) % 64 =
        (line + row) % 32 * 64 + (column + bit) % 64
      omega

end Sprite

/-! ### Collisions -/

namespace Screen

/-- **Whether some pixel that was lit is dark afterwards.** -/
def TurnsOff (before after : Screen) : Prop :=
  ∃ index, before.pixel? index = some true ∧ after.pixel? index = some false

/-- A drawing that meets no pixel twice collides if it turns a pixel off. -/
theorem turnsOff_flipped_iff (screen : Screen) {indexes : List Nat} (nodup : indexes.Nodup) :
    screen.TurnsOff (screen.flipped indexes) ↔ screen.Collides indexes := by
  rw [collides_iff_of_nodup screen nodup]
  refine exists_congr fun index => ?_
  rw [pixel?_flipped]
  by_cases member : index ∈ indexes
  · rw [List.count_eq_one_of_mem nodup member]
    constructor
    · exact fun turned => ⟨member, turned.1⟩
    · rintro ⟨-, lit⟩
      exact ⟨lit, by rw [lit]; rfl⟩
  · rw [List.count_eq_zero_of_not_mem member]
    constructor
    · rintro ⟨lit, dark⟩
      rw [lit] at dark
      cases dark
    · exact fun drawn => absurd drawn.1 member

end Screen

/-! ### Drawings -/

namespace Machine

/-- The column and the line at which a word draws a sprite. -/
def place (machine : Machine) (word : Word) : Nat × Nat :=
  ((machine.get word.x).toNat, (machine.get word.y).toNat)

/-- The machine with sprites that wrap around, or run on through all pixels. -/
def wrapping (machine : Machine) (wrap : Bool) : Machine :=
  { machine with control.settings.variant.wrapSprites := wrap }

/-- **Whether two words, each on its machine, draw the same sprite** on the same screen and in the
same way. The places at which they draw it, and the flags, may differ. -/
structure DrawsAlike (machine : Machine) (word : Word) (other : Machine) (otherWord : Word) :
    Prop where
  family : otherWord.family = 0xd
  height : otherWord.n = word.n
  index : other.registers.index = machine.registers.index
  memory : other.memory = machine.memory
  screen : other.screen = machine.screen
  wrap : other.variant.wrapSprites = machine.variant.wrapSprites

variable {machine other : Machine} {word otherWord : Word}

/-- The same sprite has the same targets in places that coincide. -/
theorem DrawsAlike.spriteTargets (alike : machine.DrawsAlike word other otherWord)
    (coincides : Sprite.Coincides machine.variant.wrapSprites (machine.place word)
      (other.place otherWord)) :
    other.spriteTargets other.registers.index.toNat otherWord =
      machine.spriteTargets machine.registers.index.toNat word := by
  unfold Machine.spriteTargets
  rw [alike.memory, alike.index, alike.height, alike.wrap]
  exact (Sprite.targets_congr fun row _ _ bit _ _ => coincides.target row bit).symm

/-- Both ways to run on have the same targets if no set bit passes the right edge. -/
theorem spriteTargets_wrapping
    (near : ∀ cell ∈ machine.setCells word, (machine.place word).1 + cell.2 < 64) (wrap : Bool) :
    (machine.wrapping wrap).spriteTargets machine.registers.index.toNat word =
      machine.spriteTargets machine.registers.index.toNat word := by
  refine Sprite.targets_congr fun row byte found bit inRow set => ?_
  refine Sprite.target_of_lt (near (row, bit) (mem_setCells_iff.mpr ?_)) _ _ _
  have drawn : row < (machine.memory.available machine.registers.index.toNat word.n).length :=
    (List.getElem?_eq_some_iff.mp found).1
  rw [Memory.length_available] at drawn
  rw [Memory.getElem?_available, if_pos (by omega)] at found
  exact ⟨(lt_rowsDrawn_iff row).mpr (by omega), inRow, byte, found, set⟩

section Drawing

variable (full : machine.screen.size = Screen.standardSize) (family : word.family = 0xd)
  (inside : machine.registers.index.toNat + word.n ≤ machine.memory.size)

include full family inside

/-- The flag after a drawing tells whether it turned a pixel off. -/
theorem draw_flag :
    let after := (machine.execute word).machine
    (machine.screen.TurnsOff after.screen → after.get Registers.flag = 1) ∧
      (¬ machine.screen.TurnsOff after.screen →
        after.get Registers.flag = machine.get Registers.flag) := by
  have nodup : (machine.spriteTargets machine.registers.index.toNat word).Nodup :=
    nodup_spriteTargets _
  have collision := machine.screen.turnsOff_flipped_iff nodup
  have flag := machine.registers.get_flag_raiseFlagIf (machine.screen.Collides
    (machine.spriteTargets machine.registers.index.toNat word))
  rw [execute_draw full family inside]
  refine ⟨fun turned => flag.trans ?_, fun kept => flag.trans ?_⟩
  · exact if_pos (decide_eq_true (collision.mp turned))
  · exact if_neg fun collides => kept (collision.mpr (of_decide_eq_true collides))

/-- **The same sprite is drawn in places that coincide.** -/
theorem DrawsAlike.screen_execute (alike : machine.DrawsAlike word other otherWord)
    (coincides : Sprite.Coincides machine.variant.wrapSprites (machine.place word)
      (other.place otherWord)) :
    (other.execute otherWord).answer = .ok () ∧
      (other.execute otherWord).machine.screen = (machine.execute word).machine.screen := by
  have executed := execute_draw full family inside
  have otherExecuted := execute_draw (by rw [alike.screen]; exact full) alike.family
    (by rw [alike.index, alike.height, alike.memory]; exact inside)
  refine ⟨congrArg Outcome.answer otherExecuted, ?_⟩
  rw [executed, otherExecuted]
  show other.screen.flipped _ = machine.screen.flipped _
  rw [alike.spriteTargets coincides, alike.screen]

/-- **Both ways to run on agree** if no set bit passes the right edge. -/
theorem execute_wrapping
    (near : ∀ cell ∈ machine.setCells word, (machine.place word).1 + cell.2 < 64) (wrap : Bool) :
    (machine.wrapping wrap).execute word =
      .done () ((machine.execute word).machine.wrapping wrap) := by
  have executed := execute_draw full family inside
  have targets := spriteTargets_wrapping near wrap
  have wrapped : (machine.wrapping wrap).execute word = _ := execute_draw full family inside
  rw [executed, wrapped]
  show Outcome.done () { (machine.wrapping wrap).note word with
    screen := machine.screen.flipped
      ((machine.wrapping wrap).spriteTargets machine.registers.index.toNat word)
    registers := machine.registers.raiseFlagIf (machine.screen.Collides
      ((machine.wrapping wrap).spriteTargets machine.registers.index.toNat word)) } = _
  simp only [targets]
  rfl

end Drawing

/-- **Sprites past the edges.** A sprite of which memory holds all rows is drawn; the flag tells
whether a lit pixel was turned off. Without wrapping, a bit that is past the right edge lands on the
next line. Past an edge, a sprite is drawn as it is at the place that coincides. Both ways to run on
agree on a sprite of which no set bit passes the right edge. -/
theorem draw_past_edges (machine : Machine) (word : Word)
    (full : machine.screen.size = Screen.standardSize) (family : word.family = 0xd)
    (inside : machine.registers.index.toNat + word.n ≤ machine.memory.size) :
    let after := (machine.execute word).machine
    let column := (machine.place word).1
    let line := (machine.place word).2
    (machine.execute word).answer = .ok () ∧
      (machine.screen.TurnsOff after.screen → after.get Registers.flag = 1) ∧
      (¬ machine.screen.TurnsOff after.screen →
        after.get Registers.flag = machine.get Registers.flag) ∧
      (machine.variant.wrapSprites = false → ∀ index,
        after.screen.pixel? index ≠ machine.screen.pixel? index ↔
          ∃ cell ∈ machine.setCells word, Screen.index ((column + cell.2) % 64)
            ((line + cell.1 + (column + cell.2) / 64) % 32) = index) ∧
      (∀ other otherWord, machine.DrawsAlike word other otherWord →
        Sprite.Coincides machine.variant.wrapSprites (column, line) (other.place otherWord) →
          (other.execute otherWord).answer = .ok () ∧
            (other.execute otherWord).machine.screen = after.screen ∧
            (other.screen.TurnsOff (other.execute otherWord).machine.screen ↔
              machine.screen.TurnsOff after.screen)) ∧
      ((column ≤ 56 ∨ ∀ cell ∈ machine.setCells word, column + cell.2 < 64) → ∀ wrap,
        (machine.wrapping wrap).execute word = .done () (after.wrapping wrap)) := by
  intro after column line
  have executed := execute_draw full family inside
  have left : after = _ := congrArg Outcome.machine executed
  obtain ⟨turned, kept⟩ := draw_flag full family inside
  refine ⟨congrArg Outcome.answer executed, turned, kept, ?_, ?_, ?_⟩
  · intro runsOn index
    have changed := machine.screen.pixel?_changed_iff (nodup_spriteTargets _)
      (spriteTargets_inside full machine.registers.index.toNat word) index
    rw [left]
    refine changed.trans ((mem_spriteTargets_iff index).trans ?_)
    refine exists_congr fun cell => and_congr_right fun _ => ?_
    rw [cellTarget_eq, runsOn, Sprite.target_runningOn]
    rfl
  · intro other otherWord alike coincides
    obtain ⟨answer, screens⟩ := alike.screen_execute full family inside coincides
    refine ⟨answer, screens, ?_⟩
    rw [screens, alike.screen]
  · intro near wrap
    refine execute_wrapping full family inside (fun cell member => ?_) wrap
    rcases near with left | bits
    · have inRow := (mem_setCells_iff.mp member).2.1
      show column + cell.2 < 64
      omega
    · exact bits cell member

/-- A sprite of four pixels right of the lower right corner, the same one at the place that coincides,
and one that ends at the right edge. -/
theorem draw_past_edges_corner :
    let machine : Machine := { (new (.ofSeed 0)).wrapping false with
      memory := ⟨#[0x0f]⟩
      registers := (Registers.blank.set 0 126).set 1 31 }
    let other : Machine := { machine with
      registers := (Registers.blank.set 0 62).set 1 32 }
    let near : Machine := { machine with
      memory := ⟨#[0xf0]⟩
      registers := (Registers.blank.set 0 60).set 1 31 }
    (machine.execute 0xd011).machine.screen.pixel? 66 ≠ machine.screen.pixel? 66 ∧
      (other.execute 0xd011).machine.screen = (machine.execute 0xd011).machine.screen ∧
      (near.wrapping true).execute 0xd011 =
        .done () ((near.execute 0xd011).machine.wrapping true) := by
  intro machine other near
  have full : machine.screen.size = Screen.standardSize := Array.size_replicate
  obtain ⟨-, -, -, lands, coincide, -⟩ :=
    draw_past_edges machine 0xd011 full (by decide) (by decide)
  obtain ⟨-, -, -, -, -, agree⟩ := draw_past_edges near 0xd011 full (by decide) (by decide)
  have alike : machine.DrawsAlike 0xd011 other 0xd011 := ⟨by decide, rfl, rfl, rfl, rfl, rfl⟩
  have ends : ∀ cell ∈ near.setCells 0xd011, (near.place 0xd011).1 + cell.2 < 64 := by decide
  refine ⟨(lands rfl 66).mpr ⟨(0, 4), by decide, by decide⟩, ?_, agree (.inr ends) true⟩
  exact (coincide other 0xd011 alike (.nextLine 62 31)).2.1

end Machine

end ChipEight
