/-
**Calls that may come before or after a tick.**

A host presses keys and lets the timers run down at its own pace, while the machine ticks. As long as
the word that a tick executes looks at neither, it does not matter which of the two comes first:

* `commutesAt_tick`: a call that answers the same on either side of a tick;
* `setKey_commutes`, `tickTimers_commutes`: keys and timers;
* `timer_step`, `timer_after`: so a timer that no word sets counts the calls that let it run down,
  however they mix with ticks;
* `host_calls_commute_with_ticks`: all of this.
-/

import ChipEight.Proofs.Instruction.WriteSet
import ChipEight.Proofs.Session.Adjustment

namespace ChipEight

/-- Whether two operations may change places: each answers and reports the same either way, and they
leave the same machine. -/
def Machine.CommutesAt (machine : Machine) (first second : Operation) : Prop :=
  (machine.performAll [first, second]).answers = (machine.performAll [second, first]).answers.reverse ∧
    machine.after [first, second] = machine.after [second, first]

/-- Whether an operation lets the timers run down. -/
def Operation.lowersTimers : Operation → Bool
  | tickTimers => true
  | _ => false

/-- The two timers. -/
inductive Timer where
  | delay
  | sound

namespace Timer

/-- The value of a timer. -/
def read : Timer → Registers → UInt8
  | delay, registers => registers.delay
  | sound, registers => registers.sound

/-- The last byte of the words that set a timer. -/
def setter : Timer → Nat
  | delay => 0x15
  | sound => 0x18

end Timer

namespace Machine

variable {machine : Machine} {operation : Operation} {word : Word}

/-! ### Words that overlook keys and timers -/

/-- A word overlooks a key that it does not ask for. -/
theorem overlooks_key {registers : Registers} {key : Nat} (down : Bool)
    (other : word.IsKey 0x9e ∨ word.IsKey 0xa1 → (registers.get word.x).toNat % 16 ≠ key) :
    word.Overlooks registers (.keys (registers.keys.setIfInBounds key down)) := by
  have kept : word.IsKey 0x9e ∨ word.IsKey 0xa1 →
      (registers.keys.setIfInBounds key down).get (registers.askedKey word.x) =
        registers.isDown (registers.askedKey word.x) := by
    intro asks
    have different : key ≠ (registers.askedKey word.x).val := by
      unfold Registers.askedKey
      rw [Registers.named_val]
      exact (other asks).symm
    exact Vector.getElem_setIfInBounds_ne (registers.askedKey word.x).isLt different
  intro instruction reads
  cases reads with
  | skipIfKey itself => exact kept (.inl itself)
  | skipUnlessKey itself => exact kept (.inr itself)
  | _ => trivial

/-- A word overlooks the timers if it neither reads nor sets one. -/
theorem overlooks_timers (registers : Registers) (delay sound : UInt8)
    (noRead : ¬ word.IsDevice 0x07) (noDelay : ¬ word.IsDevice 0x15) (noSound : ¬ word.IsDevice 0x18) :
    word.Overlooks registers (.timers delay sound) := by
  intro instruction reads
  cases reads with
  | readDelay itself => exact noRead itself
  | setDelay itself => exact noDelay itself
  | setSound itself => exact noSound itself
  | _ => trivial

/-! ### What ticks leave alone -/

/-- A tick leaves the keys, and a timer unless its word sets that timer. -/
theorem tick_leaves (machine : Machine) :
    machine.tick.machine.registers.keys = machine.registers.keys ∧
      ∀ timer : Timer, (∀ word ∈ Operation.tick.executedWord machine, ¬ word.IsDevice timer.setter) →
        timer.read machine.tick.machine.registers = timer.read machine.registers := by
  cases machine.tickKind with
  | waits waiting =>
    rw [tick_waiting waiting]
    cases found : machine.registers.firstKey? with
    | none =>
      rw [pollKeys_none found]
      exact ⟨rfl, fun _ _ => rfl⟩
    | some key =>
      rw [pollKeys_some found]
      refine ⟨rfl, fun timer _ => ?_⟩
      cases timer <;> rfl
  | stuck running unfetched =>
    rw [tick_unfetched running unfetched]
    exact ⟨rfl, fun _ _ => rfl⟩
  | executes word fetched running found =>
    have executes := Operation.execution_tick_iff.mpr ⟨running, found⟩
    obtain ⟨-, rfl⟩ := fetch?_eq_some_iff.mp found
    have writes := perform_writesOnly word ((machine.mapRegisters (·.skip)).note word)
    rw [tick_machine running found]
    refine ⟨writes.keys, fun timer unset => ?_⟩
    have noSetter := unset word (Operation.mem_executedWord_of executes)
    cases timer with
    | delay => exact Decidable.not_not.mp (mt writes.delay noSetter)
    | sound => exact Decidable.not_not.mp (mt writes.sound noSetter)

/-! ### Changing places with a tick -/

/-- **A call that answers the same before and after a tick** may change places with it, if the machine
that it leaves ticks in the same way. -/
theorem commutesAt_tick {answer : Except Failure Answer} {log : List LogEntry}
    {left leftAfter : Machine} (before : operation.perform machine = ⟨answer, left, log⟩)
    (after : operation.perform machine.tick.machine = ⟨answer, leftAfter, log⟩)
    (ticked : left.tick = { machine.tick with machine := leftAfter }) :
    machine.CommutesAt operation .tick := by
  have tickAfter : Operation.perform left .tick =
      Outcome.plain { machine.tick with machine := leftAfter } := congrArg Outcome.plain ticked
  have afterTick : operation.perform (Operation.perform machine .tick).machine = _ := after
  refine ⟨?_, ?_⟩
  · simp only [performAll, before, tickAfter, afterTick]
    rfl
  · simp only [after_cons, after_nil, before, tickAfter, afterTick]
    rfl

/-- A valid key adjusts the keys. -/
theorem setKey_inside {key : Nat} (inside : key < 16) (down : Bool) :
    machine.setKey key down =
      .done (machine.registers.isDown ⟨key, inside⟩ != down)
        (machine.adjust (.keys (machine.registers.keys.setIfInBounds key down))) :=
  dif_pos inside

theorem setKey_outside {key : Nat} (outside : ¬ key < 16) (down : Bool) :
    machine.setKey key down = .refused (.noSuchKey key) machine :=
  dif_neg outside

/-- **Keys may change before or after a tick** that does not ask for them. A number that names no key
is refused on either side. -/
theorem setKey_commutes {key : Nat} {down : Bool}
    (sets : ∀ machine : Machine, operation.perform machine = (machine.setKey key down).truth)
    (running : machine.isWaiting = false)
    (other : ∀ word ∈ Operation.tick.executedWord machine,
      word.IsKey 0x9e ∨ word.IsKey 0xa1 → (machine.get word.x).toNat % 16 ≠ key) :
    machine.CommutesAt operation .tick := by
  have before := sets machine
  have after := sets machine.tick.machine
  by_cases inside : key < 16
  · rw [setKey_inside inside] at before after
    unfold Registers.isDown at before after
    rw [(tick_leaves machine).1] at after
    refine commutesAt_tick before after (tick_adjust (fun _ => nofun) ?_ ?_)
    · exact fun waiting => absurd (running.symm.trans waiting) Bool.false_ne_true
    · exact fun word executes => overlooks_key down (other word executes)
  · rw [setKey_outside inside] at before after
    exact commutesAt_tick before after rfl

/-- Running down adjusts the timers, and depends on the timers only. -/
theorem tickTimers_of_same {other : Machine}
    (delay : other.registers.delay = machine.registers.delay)
    (sound : other.registers.sound = machine.registers.sound) :
    other.tickTimers = other.adjust
      (.timers machine.registers.tickTimers.delay machine.registers.tickTimers.sound) := by
  unfold tickTimers mapRegisters Registers.tickTimers
  simp only [delay, sound]
  rfl

/-- **The timers may run down before or after a tick** that neither reads nor sets them. -/
theorem tickTimers_commutes
    (other : ∀ word ∈ Operation.tick.executedWord machine,
      ¬ word.IsDevice 0x07 ∧ ¬ word.IsDevice 0x15 ∧ ¬ word.IsDevice 0x18) :
    machine.CommutesAt .tickTimers .tick := by
  have leaves := (tick_leaves machine).2
  have delay := leaves .delay fun word executes => (other word executes).2.1
  have sound := leaves .sound fun word executes => (other word executes).2.2
  have before := congrArg Operation.change (tickTimers_of_same (rfl : machine.registers.delay = _) rfl)
  have after := congrArg Operation.change (tickTimers_of_same delay sound)
  refine commutesAt_tick before after (tick_adjust (fun _ => nofun) (fun _ _ => nofun) ?_)
  intro word executes
  obtain ⟨noRead, noDelay, noSound⟩ := other word executes
  exact overlooks_timers machine.registers _ _ noRead noDelay noSound

/-! ### Running down -/

/-- The calls of a host apart from ticks change a timer by letting it run down only. -/
theorem hostCall_timer (timer : Timer) (call : operation.isOngoingCall = true)
    (noTick : operation ≠ .tick) (noTimers : operation ≠ .tickTimers) :
    timer.read (operation.perform machine).machine.registers = timer.read machine.registers := by
  cases operation with
  | tick => exact absurd rfl noTick
  | tickTimers => exact absurd rfl noTimers
  | loadProgram program =>
    show timer.read (machine.loadProgram program).machine.registers = _
    obtain ⟨memory, -, left | left⟩ := loadProgram_machine machine program
    · rw [left]
    · rw [left]
      cases timer <;> rfl
  | loadFont font =>
    show timer.read (machine.loadRegion .charset font).machine.registers = _
    obtain ⟨memory, -, left⟩ := loadRegion_machine machine .charset font
    rw [left]
  | press key | release key =>
    show timer.read (machine.setKey key _).machine.registers = _
    obtain ⟨keys, left⟩ := setKey_machine machine key _
    rw [left]
    cases timer <;> rfl
  | setRegister register value =>
    show timer.read (machine.setRegister register value).machine.registers = _
    obtain ⟨v, left⟩ := setRegister_machine machine register value
    rw [left]
    cases timer <;> rfl
  | _ => cases call

/-- A timer that runs down stops at zero. -/
theorem read_tickTimers (timer : Timer) (registers : Registers) :
    (timer.read registers.tickTimers).toNat = (timer.read registers).toNat - 1 := by
  have lowered : ∀ value : UInt8, (if value = 0 then 0 else value - 1).toNat = value.toNat - 1 := by
    intro value
    by_cases zero : value = 0
    · rw [if_pos zero, zero]
      rfl
    · have positive : 1 ≤ value.toNat := Nat.pos_of_ne_zero fun none => zero (UInt8.toNat_inj.mp none)
      rw [if_neg zero]
      exact UInt8.toNat_sub_of_le value 1 positive
  cases timer with
  | delay => exact lowered registers.delay
  | sound => exact lowered registers.sound

/-- **One call lets a timer run down by one or leaves it**, unless it executes a word that sets the
timer. -/
theorem timer_step (timer : Timer) (call : operation.isOngoingCall = true)
    (unset : ∀ word ∈ operation.executedWord machine, ¬ word.IsDevice timer.setter) :
    (timer.read (operation.perform machine).machine.registers).toNat =
      (timer.read machine.registers).toNat - if operation.lowersTimers then 1 else 0 := by
  by_cases isTick : operation = .tick
  · subst isTick
    exact congrArg UInt8.toNat ((tick_leaves machine).2 timer unset)
  · by_cases isTimers : operation = .tickTimers
    · subst isTimers
      exact read_tickTimers timer machine.registers
    · have other : operation.lowersTimers = false := by
        cases operation with
        | tickTimers => exact absurd rfl isTimers
        | _ => rfl
      rw [hostCall_timer timer call isTick isTimers, other]
      rfl

/-- **A timer counts the calls that let it run down**, in every session that executes no word which sets
it. -/
theorem timer_after (timer : Timer) {operations : List Operation}
    (calls : ∀ operation ∈ operations, operation.isOngoingCall = true)
    (unset : ∀ word ∈ machine.executedWords operations, ¬ word.IsDevice timer.setter) :
    (timer.read (machine.after operations).registers).toNat =
      (timer.read machine.registers).toNat - operations.countP Operation.lowersTimers := by
  induction operations generalizing machine with
  | nil => rfl
  | cons operation rest ih =>
    have step := timer_step timer (calls operation List.mem_cons_self)
      fun word executes => unset word (List.mem_append_left _ executes)
    have after := ih (fun other member => calls other (List.mem_cons_of_mem _ member))
      fun word executes => unset word (List.mem_append_right _ executes)
    rw [after_cons, after, step, List.countP_cons, Nat.add_comm, ← Nat.sub_sub]

/-- **Calls of a host and ticks that have nothing to do with each other may change places.** Keys may be
pressed and released before or after a tick of a running machine that does not ask for that key, and
the timers may run down before or after a tick that neither reads nor sets them. So over a session
without a reset that executes no word which sets a timer, the timer runs down by the number of calls
that let it, however they mix with the others. -/
theorem host_calls_commute_with_ticks (machine : Machine) :
    (machine.isWaiting = false → ∀ key,
      (∀ word ∈ Operation.tick.executedWord machine, word.IsKey 0x9e ∨ word.IsKey 0xa1 →
        (machine.get word.x).toNat % 16 ≠ key) →
      machine.CommutesAt (.press key) .tick ∧ machine.CommutesAt (.release key) .tick) ∧
    ((∀ word ∈ Operation.tick.executedWord machine,
        ¬ word.IsDevice 0x07 ∧ ¬ word.IsDevice 0x15 ∧ ¬ word.IsDevice 0x18) →
      machine.CommutesAt .tickTimers .tick) ∧
    ∀ (timer : Timer) (operations : List Operation),
      (∀ operation ∈ operations, operation.isOngoingCall = true) →
      (∀ word ∈ machine.executedWords operations, ¬ word.IsDevice timer.setter) →
      (timer.read (machine.after operations).registers).toNat =
        (timer.read machine.registers).toNat - operations.countP Operation.lowersTimers := by
  refine ⟨?_, tickTimers_commutes, ?_⟩
  · intro running key other
    exact ⟨setKey_commutes (fun _ => rfl) running other, setKey_commutes (fun _ => rfl) running other⟩
  · intro timer operations calls unset
    exact timer_after timer calls unset

/-- A tick asks for the first key while a host presses another one, and a timer runs down by two. -/
theorem host_calls_commute_with_ticks_asking :
    let machine : Machine := { new (.ofSeed 0) with
      memory := ⟨#[0xe1, 0x9e, 0xf0, 0x07]⟩
      registers := { Registers.blank with delay := 3 }
      screen := ⟨#[]⟩ }
    let operations : List Operation := [.tickTimers, .tick, .press 7, .tickTimers, .tick]
    (machine.CommutesAt (.press 7) .tick ∧ machine.CommutesAt (.release 7) .tick) ∧
      machine.CommutesAt .tickTimers .tick ∧
      (Timer.delay.read (machine.after operations).registers).toNat = 3 - 2 := by
  intro machine operations
  have asks : Operation.tick.executedWord machine = [0xe19e] := by decide
  have executes : machine.executedWords operations = [0xe19e, 0xf007] := by decide
  have zero : machine.get (Word.x 0xe19e) = 0 := by decide
  obtain ⟨keys, timers, runs⟩ := host_calls_commute_with_ticks machine
  refine ⟨keys (by decide) 7 ?_, timers ?_, runs .delay operations ?_ ?_⟩
  · rw [asks]
    simp [zero]
  · rw [asks]
    simp [Word.IsDevice, show Word.family 0xe19e = 0xe from rfl]
  · simp [operations, Operation.isOngoingCall, Operation.isHostCall]
  · rw [executes]
    simp [Word.IsDevice, Timer.setter, show Word.family 0xe19e = 0xe from rfl,
      show Word.immediate 0xf007 = 0x07 from rfl]

end Machine

end ChipEight
