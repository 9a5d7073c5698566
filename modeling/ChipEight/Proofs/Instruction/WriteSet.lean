/-
**What a word may change.**

`Machine.WritesOnly` lists the parts of a machine with the words that may change them. The list is
complete: it is kept by every instruction (`meaning_writesOnly`) and so by every word, whether it
succeeds or fails (`execute_writesOnly`). Two words that compare the same operands to the opposite
effect are `Word.Opposite`: exactly one of them skips.
-/

import ChipEight.Proofs.Instruction.Reading
import ChipEight.Proofs.Registers

namespace ChipEight

/-! ### Words by what they write -/

namespace Word

/-- The words that may pass an instruction. -/
def Skips (word : Word) : Prop :=
  word.family = 0x3 ∨ word.family = 0x4 ∨ word.family = 0x5 ∨ word.family = 0x9 ∨
    word.IsKey 0x9e ∨ word.IsKey 0xa1

/-- The words whose result goes into their first register. -/
inductive SetsFirst (word : Word) : Prop
  | byte (family : word.family = 0x6 ∨ word.family = 0x7 ∨ word.family = 0xc)
  | arithmetic (family : word.family = 0x8) (digit : word.n ≤ 0x8 ∨ word.n = 0xe)
  | delay (itself : word.IsDevice 0x07)

/-- The words that set the flag besides, or nothing but the flag. -/
inductive SetsFlag (word : Word) : Prop
  | arithmetic (family : word.family = 0x8) (digit : 0x4 ≤ word.n ∧ word.n ≤ 0x8 ∨ word.n = 0xe)
  | draw (family : word.family = 0xd)

/-- The byte registers that a word may change. -/
inductive Writes (word : Word) : Fin 16 → Prop
  | first (sets : word.SetsFirst) : Writes word word.x
  | flag (sets : word.SetsFlag) : Writes word Registers.flag
  | block (itself : word.IsDevice 0x65) {register : Fin 16} (upTo : register ≤ word.x) :
      Writes word register

/-- The addresses that a word may write to, by the index register. -/
inductive Stores (word : Word) (index : Nat) : Nat → Prop
  | digits (itself : word.IsDevice 0x33) {address : Nat} (above : index ≤ address)
      (below : address ≤ index + 2) : Stores word index address
  | registers (itself : word.IsDevice 0x55) {address : Nat} (above : index ≤ address)
      (below : address ≤ index + word.x) : Stores word index address

/-- Two words that compare the same operands, of which one skips where the other does not. -/
inductive Opposite (word other : Word) : Prop
  | byte (family : word.family = 0x3) (otherFamily : other.family = 0x4)
      (first : other.x = word.x) (second : other.immediate = word.immediate)
  | registers (family : word.family = 0x5) (otherFamily : other.family = 0x9)
      (first : other.x = word.x) (second : other.y = word.y)
  | key (itself : word.IsKey 0x9e) (otherItself : other.IsKey 0xa1) (first : other.x = word.x)

end Word

namespace Machine

/-- **What a word may change.** -/
structure WritesOnly (word : Word) (before after : Machine) : Prop where
  keys : after.registers.keys = before.registers.keys
  debug : after.control.settings.debug = before.control.settings.debug
  variant : after.variant = before.variant
  loaded : after.loaded = before.loaded
  waiting : after.isWaiting ≠ before.isWaiting → word.IsDevice 0x0a
  delay : after.registers.delay ≠ before.registers.delay → word.IsDevice 0x15
  sound : after.registers.sound ≠ before.registers.sound → word.IsDevice 0x18
  source : after.source ≠ before.source → word.family = 0xc
  screen : after.screen ≠ before.screen → word = 0x00e0 ∨ word.family = 0xd
  memory : ∀ address, after.memory.byte? address ≠ before.memory.byte? address →
    word.Stores before.registers.index.toNat address
  stack : ∀ slot : Fin 12, after.registers.stack.get slot ≠ before.registers.stack.get slot →
    word.family = 0x2 ∧ slot.val = before.registers.sp.toNat
  pointer : after.registers.sp ≠ before.registers.sp → word.family = 0x2 ∨ word = 0x00ee
  index : after.registers.index ≠ before.registers.index →
    word.family = 0xa ∨ word.IsDevice 0x1e ∨ word.IsDevice 0x29 ∨
      before.variant.advanceIndex = true ∧ (word.IsDevice 0x55 ∨ word.IsDevice 0x65)
  counter : after.registers.pc ≠ before.registers.pc →
    (word = 0x00ee ∨ word.family = 0x1 ∨ word.family = 0x2 ∨ word.family = 0xb) ∨
      word.Skips ∧ after.registers.pc = before.registers.pc + 2
  bytes : ∀ register, after.get register ≠ before.get register → word.Writes register

variable {word other : Word} {machine : Machine} {instruction : Instruction}

namespace WritesOnly

theorem nothing (word : Word) (machine : Machine) : WritesOnly word machine machine where
  keys := rfl
  debug := rfl
  variant := rfl
  loaded := rfl
  waiting changed := absurd rfl changed
  delay changed := absurd rfl changed
  sound changed := absurd rfl changed
  source changed := absurd rfl changed
  screen changed := absurd rfl changed
  memory _ changed := absurd rfl changed
  stack _ changed := absurd rfl changed
  pointer changed := absurd rfl changed
  index changed := absurd rfl changed
  counter changed := absurd rfl changed
  bytes _ changed := absurd rfl changed

theorem skipping (skips : word.Skips) (condition : Bool) :
    WritesOnly word machine (machine.skipping condition).machine := by
  cases condition with
  | false => exact nothing word machine
  | true => exact { nothing word machine with counter := fun _ => .inr ⟨skips, rfl⟩ }

theorem putting (sets : word.SetsFirst) (value : Nat) :
    WritesOnly word machine (machine.putting word.x value).machine := by
  rw [putting_eq machine word.x rfl]
  refine { nothing word machine with bytes := fun register changed => ?_ }
  rw [Registers.eq_of_set_changed changed]
  exact .first sets

theorem puttingWithFlag (sets : word.SetsFirst) (flags : word.SetsFlag) (value : Nat) (flag : Bool) :
    WritesOnly word machine (machine.puttingWithFlag word.x value flag).machine := by
  rw [puttingWithFlag_eq machine word.x rfl rfl]
  refine { nothing word machine with bytes := fun register changed => ?_ }
  rcases Registers.eq_of_setWithFlag_changed changed with rfl | rfl
  · exact .first sets
  · exact .flag flags

theorem random (family : word.family = 0xc) :
    WritesOnly word machine
      ((Instruction.random word.x word.immediate).meaning machine).machine := by
  simp only [Instruction.meaning, Registers.named_val]
  refine { nothing word machine with
    source := fun _ => family
    bytes := fun register changed => ?_ }
  rw [Registers.eq_of_set_changed changed]
  exact .first (.byte (.inr (.inr family)))

theorem returnFromCall (itself : word = 0x00ee) :
    WritesOnly word machine (Instruction.returnFromCall.meaning machine).machine := by
  simp only [Instruction.meaning]
  split
  · exact { nothing word machine with
      pointer := fun _ => .inr itself
      counter := fun _ => .inl (.inl itself) }
  · exact { nothing word machine with pointer := fun _ => .inr itself }

theorem call (family : word.family = 0x2) (target : UInt16) :
    WritesOnly word machine ((Instruction.call target).meaning machine).machine := by
  simp only [Instruction.meaning]
  split
  · refine { nothing word machine with
      pointer := fun _ => .inl family
      counter := fun _ => .inl (.inr (.inr (.inl family)))
      stack := fun slot changed => ⟨family, ?_⟩ }
    by_contra other
    refine changed ?_
    exact Vector.getElem_setIfInBounds_ne slot.isLt (Ne.symm other)
  · exact nothing word machine

theorem draw (family : word.family = 0xd) :
    WritesOnly word machine ((Instruction.draw word.x word.y (UInt8.ofNat word.n)).meaning
      machine).machine := by
  have low := word.n_lt
  rw [← draw_meaning machine word.x word.y (by omega)]
  obtain ⟨answer, targets, -, drawn⟩ := draw_eq machine word.x word.y word.n
  rw [drawn]
  cases (machine.screen.flipAll targets).collided with
  | false => exact { nothing word machine with screen := fun _ => .inr family }
  | true =>
    refine { nothing word machine with
      screen := fun _ => .inr family
      bytes := fun register changed => ?_ }
    rw [Registers.eq_of_set_changed changed]
    exact .flag (.draw family)

theorem storeDigits (itself : word.IsDevice 0x33) :
    WritesOnly word machine ((Instruction.storeDigits word.x).meaning machine).machine := by
  have inside : ∀ address, (machine.memory.overlay machine.registers.index.toNat
      ([machine.value word.x / 100, machine.value word.x / 10 % 10, machine.value word.x % 10].map
        UInt8.ofNat)).byte? address ≠ machine.memory.byte? address →
      word.Stores machine.registers.index.toNat address := by
    intro address changed
    obtain ⟨above, below⟩ := Memory.inside_of_overlay_changed _ _ changed
    exact .digits itself above (Nat.le_of_lt_succ below)
  simp only [Instruction.meaning]
  split
  · exact { nothing word machine with memory := inside }
  · exact { nothing word machine with memory := inside }

/-- The index register moves only if the variant asks for it. -/
theorem advances {length : Nat}
    (changed : machine.indexBehind length ≠ machine.registers.index) :
    machine.variant.advanceIndex = true := by
  by_contra stays
  exact changed (if_neg stays)

theorem storeRegisters (itself : word.IsDevice 0x55) :
    WritesOnly word machine ((Instruction.storeRegisters word.x).meaning machine).machine := by
  simp only [Instruction.meaning]
  split
  · refine { nothing word machine with
      index := fun changed => .inr (.inr (.inr ⟨advances changed, .inl itself⟩))
      memory := fun address changed => ?_ }
    obtain ⟨above, below⟩ := Memory.inside_of_overlay_changed _ _ changed
    have few := List.length_take_le (word.x.val % 16 + 1) machine.registers.v.toList
    exact .registers itself above (by omega)
  · exact nothing word machine

theorem loaded_block (itself : word.IsDevice 0x65) {v : Vector UInt8 16} {index : UInt16}
    (advanced : index ≠ machine.registers.index → machine.variant.advanceIndex = true)
    (bytes : ∀ register, v.get register ≠ machine.get register → register ≤ word.x) :
    WritesOnly word machine { machine with registers := { machine.registers with v, index } } :=
  { nothing word machine with
    index := fun changed => .inr (.inr (.inr ⟨advanced changed, .inr itself⟩))
    bytes := fun register changed => .block itself (bytes register changed) }

theorem loadRegisters (itself : word.IsDevice 0x65) :
    WritesOnly word machine ((Instruction.loadRegisters word.x).meaning machine).machine := by
  simp only [Instruction.meaning]
  split
  · refine loaded_block itself advances fun register changed => ?_
    by_contra behind
    have kept : ¬ register.val < word.x.val % 16 + 1 := by
      intro within
      exact behind (show register.val ≤ word.x.val by omega)
    exact changed ((Vector.getElem_ofFn register.isLt).trans (if_neg kept))
  · exact nothing word machine

end WritesOnly

/-- **An instruction changes only what its word may change.** -/
theorem meaning_writesOnly (reads : word.ReadsAs instruction) :
    WritesOnly word machine (instruction.meaning machine).machine := by
  have nothing := WritesOnly.nothing word machine
  cases reads with
  | clearScreen itself => exact { nothing with screen := fun _ => .inl itself }
  | returnFromCall itself => exact .returnFromCall itself
  | jump family => exact { nothing with counter := fun _ => .inl (.inr (.inl family)) }
  | call family => exact .call family word.address
  | skipIfByte family => exact .skipping (.inl family) _
  | skipUnlessByte family => exact .skipping (.inr (.inl family)) _
  | skipIfEqual family => exact .skipping (.inr (.inr (.inl family))) _
  | skipUnlessEqual family => exact .skipping (.inr (.inr (.inr (.inl family)))) _
  | skipIfKey itself => exact .skipping (.inr (.inr (.inr (.inr (.inl itself))))) _
  | skipUnlessKey itself => exact .skipping (.inr (.inr (.inr (.inr (.inr itself))))) _
  | loadByte family => exact .putting (.byte (.inl family)) _
  | addByte family => exact .putting (.byte (.inr (.inl family))) _
  | copy family digit | bitOr family digit | bitAnd family digit | bitXor family digit =>
    exact .putting (.arithmetic family (by omega)) _
  | add family digit | subtract family digit | shiftRight family digit | subtractFrom family digit
    | shiftLeft family digit =>
    exact .puttingWithFlag (.arithmetic family (by omega)) (.arithmetic family (by omega)) _ _
  | setIndex family => exact { nothing with index := fun _ => .inl family }
  | jumpFrom family => exact { nothing with counter := fun _ => .inl (.inr (.inr (.inr family))) }
  | random family => exact .random family
  | draw family => exact .draw family
  | readDelay itself => exact .putting (.delay itself) _
  | awaitKey itself => exact { nothing with waiting := fun _ => itself }
  | setDelay itself => exact { nothing with delay := fun _ => itself }
  | setSound itself => exact { nothing with sound := fun _ => itself }
  | addIndex itself => exact { nothing with index := fun _ => .inr (.inl itself) }
  | pointAtGlyph itself => exact { nothing with index := fun _ => .inr (.inr (.inl itself)) }
  | storeDigits itself => exact .storeDigits itself
  | storeRegisters itself => exact .storeRegisters itself
  | loadRegisters itself => exact .loadRegisters itself

/-- **A word changes only what it may change**, however it ends. -/
theorem perform_writesOnly (word : Word) (machine : Machine) :
    WritesOnly word machine (machine.perform word).machine := by
  rcases machine.perform_cases word with
    ⟨instruction, reads, performed⟩ | ⟨-, -, performed⟩ | ⟨-, performed⟩
  · rw [performed]
    exact meaning_writesOnly reads
  · rw [performed]
    exact .nothing word machine
  · rw [performed]
    exact .nothing word machine

/-! ### Opposite words -/

/-- Of two ways to go on, one passes an instruction and the other does not. -/
def OneSkips (before first second : Machine) : Prop :=
  (first.registers.pc = before.registers.pc + 2 ∧ second.registers.pc = before.registers.pc) ∨
    (first.registers.pc = before.registers.pc ∧ second.registers.pc = before.registers.pc + 2)

theorem skipping_oneSkips {first second : Machine} {condition opposite : Bool}
    (counter : first.registers.pc = machine.registers.pc)
    (otherCounter : second.registers.pc = machine.registers.pc)
    (negated : opposite = !condition) :
    OneSkips machine (first.skipping condition).machine (second.skipping opposite).machine := by
  rw [negated]
  cases condition with
  | false => exact .inr ⟨counter, congrArg (· + 2) otherCounter⟩
  | true => exact .inl ⟨congrArg (· + 2) counter, otherCounter⟩

/-- **Of two opposite words exactly one skips.** -/
theorem execute_opposite (opposite : word.Opposite other) :
    OneSkips machine (machine.execute word).machine (machine.execute other).machine := by
  unfold execute
  cases opposite with
  | byte family otherFamily first second =>
    rw [perform_of_reads (.skipIfByte family), perform_of_reads (.skipUnlessByte otherFamily), first,
      second]
    exact skipping_oneSkips rfl rfl (decide_not ..)
  | registers family otherFamily first second =>
    rw [perform_of_reads (.skipIfEqual family), perform_of_reads (.skipUnlessEqual otherFamily),
      first, second]
    exact skipping_oneSkips rfl rfl (decide_not ..)
  | key itself otherItself first =>
    rw [perform_of_reads (.skipIfKey itself), perform_of_reads (.skipUnlessKey otherItself), first]
    exact skipping_oneSkips rfl rfl rfl

/-- **What the execution of a word changes**, whether it succeeds or fails, and which of two opposite
words skips. -/
theorem execute_writesOnly (word : Word) (machine : Machine) :
    WritesOnly word machine (machine.execute word).machine ∧
      ∀ other, word.Opposite other →
        OneSkips machine (machine.execute word).machine (machine.execute other).machine := by
  have writes : WritesOnly word (machine.note word) (machine.execute word).machine :=
    perform_writesOnly word (machine.note word)
  exact ⟨{ writes with }, fun other opposite => execute_opposite opposite⟩

/-- Two registers, compared by words with different last digits. -/
theorem execute_writesOnly_opposite :
    let machine := new (.ofSeed 0)
    Word.Opposite 0x512f 0x9120 ∧
      OneSkips machine (machine.execute 0x512f).machine (machine.execute 0x9120).machine := by
  intro machine
  have opposite : Word.Opposite 0x512f 0x9120 :=
    .registers (by decide) (by decide) (by decide) (by decide)
  exact ⟨opposite, (execute_writesOnly 0x512f machine).2 0x9120 opposite⟩

end Machine

end ChipEight
