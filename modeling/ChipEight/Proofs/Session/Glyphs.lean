/-
**The glyphs of the built-in font.**

Loading a program puts the font at the start of memory, and there it stays as long as nothing writes
over it. So a program that clears the screen, points at the glyph of a digit and draws five rows of
it shows that glyph:

* `loadProgram_font`, `SparesFont.after`: memory holds the font after a load, and after every
  session that spares it;
* `clears_screen`, `points_at_glyph`, `draws_dark`: the three words, each of them executed by itself
  or by a tick, and `KeepsGround` what they keep;
* `mem_setCells_glyph`, `lights_glyph`: the pixels of a glyph;
* `glyphs_as_in_font`: all of this.
-/

import ChipEight.Proofs.Execution.ParallelDrawing
import ChipEight.Proofs.Instruction.WriteSet
import ChipEight.Proofs.Session.Sizes

namespace ChipEight

/-- Whether the glyph of a digit has a pixel in a row and a column. -/
def Font.shows (digit row column : Nat) : Bool :=
  (Font.bytes[5 * digit + row]?).any fun byte => byte.toNat.testBit (7 - column)

/-- Whether memory holds the font at its start. -/
def Memory.HoldsFont (memory : Memory) : Prop :=
  ∀ address < 80, memory.byte? address = Font.bytes[address]?

/-- Memory that holds the font has room for it. -/
theorem Memory.HoldsFont.le_size {memory : Memory} (holds : memory.HoldsFont) :
    80 ≤ memory.size := by
  by_contra short
  have last := holds 79 (by decide)
  rw [(Memory.byte?_eq_none_iff _ _).mpr (by omega)] at last
  cases last

/-- Whether an operation writes to memory by the words that it executes only, or loads a program. -/
def Operation.sparesFont : Operation → Bool
  | loadFont _ | reset _ | store .. | overwrite .. | loadRegion .. | clearRegion _
  | eraseMemory => false
  | _ => true

/-- Whether nothing in a session writes over the font: neither an operation by itself, nor a word
that stores digits or registers. -/
def Machine.SparesFont (machine : Machine) : List Operation → Prop
  | [] => True
  | operation :: rest =>
    operation.sparesFont = true ∧
      (∀ word ∈ operation.executedWord machine, ∀ address < 80,
        ¬ word.Stores machine.registers.index.toNat address) ∧
      (operation.perform machine).machine.SparesFont rest

namespace Machine

variable {machine : Machine} {operation : Operation} {word : Word}

/-! ### The font in memory -/

/-- **A program comes with the font**, if it is loaded at all. -/
theorem loadProgram_font (machine : Machine) (program : Array UInt8) :
    (machine.loadProgram program).machine.memory.HoldsFont ∨
      (machine.loadProgram program).answer ≠ .ok () ∧
        (machine.loadProgram program).machine = machine := by
  rcases Nat.lt_or_ge program.size 3584 with fits | long
  · rcases Nat.lt_or_ge machine.memory.size (0x200 + program.size) with short | room
    · rw [loadProgram_of_short fits short]
      exact .inr ⟨nofun, rfl⟩
    · rw [loadProgram_of_room fits room]
      exact .inl fun address inFont =>
        (machine.memory.byte?_withProgram room address).trans (if_pos inFont)
  · rw [loadProgram_of_long long]
    exact .inr ⟨nofun, rfl⟩

theorem pollKeys_memory (machine : Machine) : machine.pollKeys.machine.memory = machine.memory := by
  cases found : machine.registers.firstKey? with
  | none => rw [pollKeys_none found, Outcome.done_machine]
  | some key =>
    rw [pollKeys_some found]
    rfl

/-- An operation that executes no word and loads nothing leaves memory, if it spares the font. -/
theorem perform_memory (spares : operation.sparesFont = true)
    (idle : operation.execution? machine = none)
    (noLoad : ∀ program, operation ≠ .loadProgram program) :
    (operation.perform machine).machine.memory = machine.memory := by
  cases operation with
  | execute word => cases idle
  | loadProgram program => exact absurd rfl (noLoad program)
  | tick =>
    show machine.tick.machine.memory = _
    cases machine.tickKind with
    | waits waiting =>
      rw [tick_waiting waiting]
      exact machine.pollKeys_memory
    | stuck running unfetched => rw [tick_unfetched running unfetched, Outcome.outOfBounds_machine]
    | executes word fetched running found =>
      rw [Operation.execution_tick_iff.mpr ⟨running, found⟩] at idle
      cases idle
  | pollKeys => exact machine.pollKeys_memory
  | press key | release key =>
    show (machine.setKey key _).machine.memory = _
    obtain ⟨keys, left⟩ := machine.setKey_machine key _
    rw [left]
    rfl
  | setRegister register value =>
    show (machine.setRegister register value).machine.memory = _
    obtain ⟨v, left⟩ := machine.setRegister_machine register value
    rw [left]
    rfl
  | fetch =>
    simp only [Operation.perform]
    split
    · rfl
    · rename_i found
      obtain ⟨-, rfl⟩ := fetch?_eq_some_iff.mp found
      rfl
  | setSlot | setKey | setPixel | togglePixel =>
    simp only [Operation.perform]
    split <;> rfl
  | loadFont | reset | store | overwrite | loadRegion | clearRegion | eraseMemory => cases spares
  | _ => rfl

/-- **The font stays in memory** as long as nothing writes over it. -/
theorem perform_holdsFont (holds : machine.memory.HoldsFont) (spares : operation.sparesFont = true)
    (noStore : ∀ word ∈ operation.executedWord machine, ∀ address < 80,
      ¬ word.Stores machine.registers.index.toNat address) :
    (operation.perform machine).machine.memory.HoldsFont := by
  cases executes : operation.execution? machine with
  | some pair =>
    obtain ⟨word, executing⟩ := pair
    have index : executing.registers.index = machine.registers.index := by
      rw [Operation.execution_registers executes]
    have memory : executing.memory = machine.memory :=
      congrArg (·.memory) (Operation.execution_machine executes)
    have writes := perform_writesOnly word (executing.note word)
    have unwritten := noStore word (Operation.mem_executedWord_of executes)
    rw [(Operation.perform_execution executes).1]
    intro address inFont
    rw [← holds address inFont, ← memory]
    by_contra changed
    refine unwritten address inFont ?_
    rw [← index]
    exact writes.memory address changed
  | none =>
    by_cases isLoad : ∃ program, operation = .loadProgram program
    · obtain ⟨program, rfl⟩ := isLoad
      show (machine.loadProgram program).machine.memory.HoldsFont
      rcases machine.loadProgram_font program with loaded | ⟨-, rejected⟩
      · exact loaded
      · rwa [rejected]
    · rw [perform_memory spares executes fun program load => isLoad ⟨program, load⟩]
      exact holds

/-- **The font stays in memory through a session** in which nothing writes over it. -/
theorem SparesFont.after {operations : List Operation} (spares : machine.SparesFont operations)
    (holds : machine.memory.HoldsFont) : (machine.after operations).memory.HoldsFont := by
  induction operations generalizing machine with
  | nil => exact holds
  | cons operation rest ih =>
    obtain ⟨byItself, byWord, behind⟩ := spares
    exact ih behind (perform_holdsFont holds byItself byWord)

theorem screen_size_after (machine : Machine) (operations : List Operation) :
    (machine.after operations).screen.size = machine.screen.size := by
  induction operations generalizing machine with
  | nil => rfl
  | cons operation rest ih =>
    exact (ih _).trans (congrArg Prod.snd (operation.perform_sizes machine))

/-! ### The three words of a glyph -/

/-- What the words that draw a glyph keep: all that the drawing depends on besides the index
register and the screen. -/
structure KeepsGround (before after : Machine) : Prop where
  bytes : after.registers.v = before.registers.v
  memory : after.memory = before.memory
  settings : after.control.settings = before.control.settings

namespace KeepsGround

variable {before between after : Machine}

theorem trans (first : KeepsGround before between) (second : KeepsGround between after) :
    KeepsGround before after where
  bytes := second.bytes.trans first.bytes
  memory := second.memory.trans first.memory
  settings := second.settings.trans first.settings

theorem get (keeps : KeepsGround before after) (register : Fin 16) :
    after.get register = before.get register :=
  congrArg (·.get register) keeps.bytes

theorem cellTarget (keeps : KeepsGround before after) (word : Word) :
    after.cellTarget word = before.cellTarget word := by
  have variant : after.variant = before.variant := congrArg Settings.variant keeps.settings
  funext cell
  simp only [Machine.cellTarget, keeps.get, variant]

end KeepsGround

/-- Clearing the screen. -/
theorem clears_screen (executes : operation.executedWord machine = [0x00e0]) :
    (operation.perform machine).answer = .ok .done ∧
      KeepsGround machine (operation.perform machine).machine ∧
      (operation.perform machine).machine.screen = machine.screen.erase := by
  obtain ⟨pc, left, answer⟩ := Operation.perform_executedWord executes
  rw [left, answer]
  exact ⟨rfl, ⟨rfl, rfl, rfl⟩, rfl⟩

/-- **Pointing at a glyph**: five bytes for each digit before it, which always fits the index
register. -/
theorem execute_pointAtGlyph (itself : word.IsDevice 0x29) :
    machine.execute word = .done () ((machine.note word).mapRegisters fun registers =>
      { registers with index := UInt16.ofNat (5 * (machine.get word.x).toNat) }) := by
  refine (perform_of_reads (.pointAtGlyph itself)).trans ?_
  simp only [Instruction.meaning, value_eq]
  rfl

theorem glyph_fits (digit : UInt8) : (UInt16.ofNat (5 * digit.toNat)).toNat = 5 * digit.toNat := by
  have small := digit.toNat_lt
  exact Nat.mod_eq_of_lt (by omega)

theorem points_at_glyph (itself : word.IsDevice 0x29)
    (executes : operation.executedWord machine = [word]) :
    (operation.perform machine).answer = .ok .done ∧
      KeepsGround machine (operation.perform machine).machine ∧
      (operation.perform machine).machine.screen = machine.screen ∧
      (operation.perform machine).machine.registers.index.toNat =
        5 * (machine.get word.x).toNat := by
  obtain ⟨pc, left, answer⟩ := Operation.perform_executedWord executes
  rw [left, answer, execute_pointAtGlyph itself]
  exact ⟨rfl, ⟨rfl, rfl, rfl⟩, rfl, glyph_fits _⟩

/-- **Drawing on a dark screen** turns pixels on, and leaves the flag. -/
theorem draw_dark (large : Screen.standardSize ≤ machine.screen.size)
    (dark : ∀ index, machine.screen.pixel? index ≠ some true)
    (held : machine.registers.index.toNat + word.n ≤ machine.memory.size) :
    machine.draw word.x word.y word.n = .done () { machine with
      screen := machine.screen.flipped
        (machine.spriteTargets machine.registers.index.toNat word) } := by
  have inside : ∀ index ∈ machine.spriteTargets machine.registers.index.toNat word,
      index < machine.screen.size := fun index member =>
    Nat.lt_of_lt_of_le (Sprite.targets_lt _ _ _ _ index member) large
  have apart :
      ¬ machine.screen.Collides (machine.spriteTargets machine.registers.index.toNat word) := by
    rw [Screen.collides_iff_of_nodup _ (nodup_spriteTargets _)]
    rintro ⟨index, -, lit⟩
    exact dark index lit
  have whole : machine.rowsDrawn word = word.n := if_pos held
  rw [draw_inside inside, if_pos whole, decide_eq_false apart]
  rfl

theorem draws_dark (family : word.family = 0xd)
    (executes : operation.executedWord machine = [word])
    (large : Screen.standardSize ≤ machine.screen.size)
    (dark : ∀ index, machine.screen.pixel? index ≠ some true)
    (held : machine.registers.index.toNat + word.n ≤ machine.memory.size) :
    (operation.perform machine).answer = .ok .done ∧
      KeepsGround machine (operation.perform machine).machine ∧
      (operation.perform machine).machine.screen =
        machine.screen.flipped (machine.spriteTargets machine.registers.index.toNat word) := by
  obtain ⟨pc, left, answer⟩ := Operation.perform_executedWord executes
  have drawn : ((machine.mapRegisters fun registers => { registers with pc }).note word).draw
      word.x word.y word.n = _ := draw_dark large dark held
  rw [left, answer, execute_eq_draw family, drawn]
  exact ⟨rfl, ⟨rfl, rfl, rfl⟩, rfl⟩

/-! ### The pixels of a glyph -/

/-- **The set cells of a glyph** are those that the font shows. -/
theorem mem_setCells_glyph {digit : Nat} (holds : machine.memory.HoldsFont) (small : digit ≤ 15)
    (points : machine.registers.index.toNat = 5 * digit) (height : word.n = 5)
    (cell : Nat × Nat) :
    cell ∈ machine.setCells word ↔
      cell.1 < 5 ∧ cell.2 < 8 ∧ Font.shows digit cell.1 cell.2 = true := by
  have room := holds.le_size
  have rows : machine.rowsDrawn word = 5 := by
    rw [rowsDrawn, height, if_pos (by omega)]
  rw [mem_setCells_iff, rows]
  refine and_congr_right fun low => and_congr_right fun _ => ?_
  rw [points, holds _ (by omega), Font.shows, Option.any_eq_true]
  rfl

/-- Whether a pixel of the glyph of a digit lands on an index, if a word draws the glyph. -/
def GlyphLandsOn (machine : Machine) (drawing : Word) (digit index : Nat) : Prop :=
  ∃ row < 5, ∃ column < 8, Font.shows digit row column = true ∧
    machine.cellTarget drawing (row, column) = index

variable {clear point draw : Operation} {pointing drawing : Word}

/-- **The three words of a glyph** flip the pixels of a dark screen on which it lands. -/
theorem draws_glyph (large : Screen.standardSize ≤ machine.screen.size)
    (holds : machine.memory.HoldsFont) (points : pointing.IsDevice 0x29)
    (draws : drawing.family = 0xd) (height : drawing.n = 5)
    (executed : machine.executedWords [clear, point, draw] = [0x00e0, pointing, drawing])
    (small : (machine.get pointing.x).toNat ≤ 15) :
    (machine.performAll [clear, point, draw]).answers.map Prod.fst =
        [.ok .done, .ok .done, .ok .done] ∧
      KeepsGround machine (machine.after [clear, point, draw]) ∧
      ∃ targets : List Nat, targets.Nodup ∧
        (machine.after [clear, point, draw]).screen = machine.screen.erase.flipped targets ∧
        ∀ index, index ∈ targets ↔
          machine.GlyphLandsOn drawing (machine.get pointing.x).toNat index := by
  obtain ⟨clears, executed⟩ := executedWords_cons rfl executed
  obtain ⟨pointsAt, executed⟩ := executedWords_cons rfl executed
  obtain ⟨drawsRows, -⟩ := executedWords_cons rfl executed
  obtain ⟨firstAnswer, firstKeeps, erased⟩ := clears_screen clears
  obtain ⟨secondAnswer, secondKeeps, sameScreen, index⟩ := points_at_glyph points pointsAt
  have keeps := firstKeeps.trans secondKeeps
  rw [firstKeeps.get] at index
  -- the machine that draws
  generalize ready : (point.perform (clear.perform machine).machine).machine = pointed at *
  have held : pointed.memory.HoldsFont := keeps.memory ▸ holds
  have dark : ∀ index, pointed.screen.pixel? index ≠ some true := by
    intro index
    rw [sameScreen, erased, Screen.pixel?_erase]
    split <;> nofun
  have wide : Screen.standardSize ≤ pointed.screen.size := by
    rwa [sameScreen, erased, Screen.size_erase]
  have room : pointed.registers.index.toNat + drawing.n ≤ pointed.memory.size := by
    have whole := held.le_size
    omega
  obtain ⟨thirdAnswer, thirdKeeps, drawn⟩ := draws_dark draws drawsRows wide dark room
  refine ⟨?_, ?_, pointed.spriteTargets pointed.registers.index.toNat drawing,
    nodup_spriteTargets _, ?_, fun pixel => ?_⟩
  · show [_, _, _] = _
    rw [firstAnswer, secondAnswer, ready, thirdAnswer]
  · show KeepsGround machine (draw.perform _).machine
    rw [ready]
    exact keeps.trans thirdKeeps
  · show (draw.perform _).machine.screen = _
    rw [ready, drawn, sameScreen, erased]
  · rw [mem_spriteTargets_iff, keeps.cellTarget]
    simp only [mem_setCells_glyph held small index height, GlyphLandsOn, Prod.exists, and_assoc,
      exists_and_left]

/-- **The pixels of a glyph** are lit where the font shows one and nowhere else, if they have been
flipped on a dark screen. -/
theorem lights_glyph {screen : Screen} {targets : List Nat} {digit : Nat}
    (large : Screen.standardSize ≤ screen.size) (nodup : targets.Nodup)
    (lands : ∀ index, index ∈ targets ↔ machine.GlyphLandsOn drawing digit index) :
    (∀ row < 5, ∀ column < 8,
        (screen.erase.flipped targets).pixel? (machine.cellTarget drawing (row, column)) =
          some (Font.shows digit row column)) ∧
      ∀ index, (screen.erase.flipped targets).pixel? index = some true ↔
        machine.GlyphLandsOn drawing digit index := by
  have onScreen : ∀ cell, machine.cellTarget drawing cell < screen.size := by
    intro cell
    rw [cellTarget_eq]
    exact Nat.lt_of_lt_of_le (Sprite.target_lt _ _ _) large
  constructor
  · intro row low column inRow
    rw [screen.pixel?_flipped_erase nodup, if_pos (onScreen _), Option.some.injEq,
      Bool.eq_iff_iff, decide_eq_true_eq, lands]
    constructor
    · rintro ⟨other, otherLow, bit, otherInRow, shows, same⟩
      have one : (other, bit) = (row, column) := cellTarget_inj
        (Nat.lt_trans otherLow (by decide)) (Nat.lt_trans low (by decide)) otherInRow inRow same
      cases one
      exact shows
    · intro shows
      exact ⟨row, low, column, inRow, shows, rfl⟩
  · intro index
    rw [screen.pixel?_flipped_erase nodup, ← lands]
    constructor
    · intro lit
      split at lit
      · simpa using lit
      · cases lit
    · intro member
      obtain ⟨row, -, column, -, -, rfl⟩ := (lands index).mp member
      rw [if_pos (onScreen _), decide_eq_true member]

/-- **Glyphs are drawn as in the font.** A program has been loaded, and a session has followed in
which nothing wrote over the font. Then three words, each of them executed by itself or by a tick,
clear the screen, point at the glyph of the digit in some register, and draw five rows. They succeed.
A pixel on which a row and a column of the sprite land is lit if the font has a bit there, by the way
in which sprites run on at the edges; no other pixel is lit, and no register of bytes has changed, so
neither has the flag. Pointing at a glyph is exact for all bytes. -/
theorem glyphs_as_in_font {program : Array UInt8} {operations : List Operation}
    (large : Screen.standardSize ≤ machine.screen.size)
    (accepted : (machine.loadProgram program).answer = .ok ())
    (spares : (machine.loadProgram program).machine.SparesFont operations) :
    let run := (machine.loadProgram program).machine.after operations
    (∀ (clear point draw : Operation) (pointing drawing : Word),
      pointing.IsDevice 0x29 → drawing.family = 0xd → drawing.n = 5 →
      run.executedWords [clear, point, draw] = [0x00e0, pointing, drawing] →
      (run.get pointing.x).toNat ≤ 15 →
      let digit := (run.get pointing.x).toNat
      let shown := run.after [clear, point, draw]
      (run.performAll [clear, point, draw]).answers.map Prod.fst =
          [.ok .done, .ok .done, .ok .done] ∧
        (∀ row < 5, ∀ column < 8,
          shown.screen.pixel? (run.cellTarget drawing (row, column)) =
            some (Font.shows digit row column)) ∧
        (∀ index, shown.screen.pixel? index = some true ↔
          run.GlyphLandsOn drawing digit index) ∧
        ∀ register, shown.get register = run.get register) ∧
    ∀ (other : Machine) (word : Word), word.IsDevice 0x29 →
      (other.execute word).answer = .ok () ∧
        (other.execute word).machine.registers.index.toNat = 5 * (other.get word.x).toNat := by
  intro run
  have holds : run.memory.HoldsFont := spares.after
    ((machine.loadProgram_font program).resolve_right fun rejected => rejected.1 accepted)
  have size : Screen.standardSize ≤ run.screen.size := by
    rw [screen_size_after]
    exact large.trans_eq (congrArg Prod.snd (machine.loadProgram_sizes program)).symm
  refine ⟨?_, fun other word itself => ?_⟩
  · intro clear point draw pointing drawing points draws height executed small digit shown
    obtain ⟨answers, keeps, targets, nodup, screen, lands⟩ :=
      draws_glyph size holds points draws height executed small
    obtain ⟨pixels, noOther⟩ := lights_glyph size nodup lands
    rw [← screen] at pixels noOther
    exact ⟨answers, pixels, noOther, keeps.get⟩
  · rw [execute_pointAtGlyph itself]
    exact ⟨rfl, glyph_fits _⟩

/-- The digits of a byte are stored right behind the font, and then the glyph of eleven is drawn. Its
first row has three pixels. -/
theorem glyphs_as_in_font_eleven :
    let machine := new (.ofSeed 0)
    let program : Array UInt8 := #[0x12, 0x00]
    let operations : List Operation := [.setIndex 80, .execute 0xfa33, .setRegister 10 11]
    let run := (machine.loadProgram program).machine.after operations
    let shown := run.after [.execute 0x00e0, .execute 0xfa29, .execute 0xdaa5]
    Screen.standardSize ≤ machine.screen.size ∧
      (machine.loadProgram program).answer = .ok () ∧
      (machine.loadProgram program).machine.SparesFont operations ∧
      shown.screen.pixel? (715 + 2) = some true ∧ shown.screen.pixel? (715 + 3) = some false ∧
      shown.get Registers.flag = run.get Registers.flag := by
  intro machine program operations run shown
  have large : Screen.standardSize ≤ machine.screen.size := Nat.le_of_eq Array.size_replicate.symm
  have accepted : (machine.loadProgram program).answer = .ok () := by
    have room : 0x200 + program.size ≤ machine.memory.size := by
      rw [new_memory_size]
      decide
    rw [loadProgram_of_room (by decide) room]
    rfl
  clear_value machine
  have spares : (machine.loadProgram program).machine.SparesFont operations := by
    refine ⟨rfl, nofun, rfl, ?_, rfl, nofun, trivial⟩
    intro word member address inFont stores
    rw [List.mem_singleton.mp member] at stores
    cases stores with
    | digits itself above below => exact absurd inFont (Nat.not_lt.mpr above)
    | registers itself above below =>
      exact absurd itself.2 (show ¬ (Word.immediate 0xfa33).toNat = 0x55 by decide)
  have digit : run.get 10 = 11 := Registers.get_set_self _ 10 11
  have lands : ∀ column < 8, run.cellTarget 0xdaa5 (0, column) = 715 + column := by
    intro column inRow
    have first : run.get (Word.x 0xdaa5) = 11 := digit
    have second : run.get (Word.y 0xdaa5) = 11 := digit
    simp only [cellTarget, first, second, UInt8.reduceToNat]
    split <;> omega
  obtain ⟨-, pixels, -, kept⟩ := (glyphs_as_in_font large accepted spares).1 (.execute 0x00e0)
    (.execute 0xfa29) (.execute 0xdaa5) 0xfa29 0xdaa5 ⟨by decide, by decide⟩ (by decide) (by decide)
    rfl (by rw [show run.get (Word.x 0xfa29) = 11 from digit]; decide)
  -- the session by its name, so that nothing unfolds it
  rw [show (machine.loadProgram program).machine.after operations = run from rfl] at pixels kept
  rw [show run.after _ = shown from rfl] at pixels kept
  have row : ∀ column < 8, shown.screen.pixel? (715 + column) = some (Font.shows 11 0 column) := by
    intro column inRow
    rw [← lands column inRow]
    refine (pixels 0 (by decide) column inRow).trans ?_
    rw [show run.get (Word.x 0xfa29) = 11 from digit]
    rfl
  exact ⟨large, accepted, spares, (row 2 (by decide)).trans rfl, (row 3 (by decide)).trans rfl,
    kept _⟩

end Machine

end ChipEight
