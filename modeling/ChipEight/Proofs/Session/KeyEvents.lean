/-
**Key events.**

The keys belong to the host: nothing that a machine executes moves one, not even the tick that takes
a key at the end of a wait. So the level of a key is the one that its last event gave it, and every
event tells whether it moved the key:

* `isDown_setKey`: which key an event moves;
* `answer_of_keyEvent`, `isDown_perform`: what an event answers, and every key after one call;
* `isDown_after`: every key after a session;
* `keyMoves_sub`: the events that moved a key, counted in both directions;
* `key_events_decide`: all of this, and what is refused.
-/

import ChipEight.Proofs.Session.Independence

namespace ChipEight

/-- Setting a key sets no other one. -/
theorem Registers.isDown_setKey (registers : Registers) (key other : Fin 16) (down : Bool) :
    (registers.setKey key down).isDown other =
      if key = other then down else registers.isDown other := by
  unfold isDown setKey
  show (registers.keys.setIfInBounds key.val down)[other.val] = _
  rw [Vector.getElem_setIfInBounds other.isLt]
  simp only [Fin.ext_iff]
  rfl

/-- The way in which an operation moves a key, if it is a press or a release of that key. -/
def Operation.keyEvent? (key : Nat) : Operation → Option Bool
  | press other => if other = key then some true else none
  | release other => if other = key then some false else none
  | _ => none

namespace Machine

variable {machine : Machine} {operation : Operation}

/-- How many events of a session answer that they moved a key in some way. -/
def keyMoves (machine : Machine) (key : Nat) (down : Bool) : List Operation → Nat
  | [] => 0
  | operation :: rest =>
    (if operation.keyEvent? key = some down ∧
        (operation.perform machine).answer = .ok (.truth true) then 1 else 0) +
      (operation.perform machine).machine.keyMoves key down rest

/-! ### One call -/

/-- An event of a key is an attempt to set it. -/
theorem perform_of_keyEvent {key : Nat} {down : Bool} (event : operation.keyEvent? key = some down)
    (machine : Machine) : operation.perform machine = (machine.setKey key down).truth := by
  cases operation with
  | press other | release other =>
    rw [Operation.keyEvent?] at event
    split at event
    · rename_i same
      cases event
      subst same
      rfl
    · cases event
  | _ => cases event

/-- **An event tells whether it moves its key**, and leaves it at its own level. -/
theorem answer_of_keyEvent {key : Fin 16} {down : Bool}
    (event : operation.keyEvent? key = some down) (machine : Machine) :
    (operation.perform machine).answer = .ok (.truth (machine.registers.isDown key != down)) ∧
      (operation.perform machine).machine.registers.isDown key = down := by
  rw [perform_of_keyEvent event, setKey_inside key.isLt]
  refine ⟨rfl, ?_⟩
  exact (machine.registers.isDown_setKey key key down).trans (if_pos rfl)

/-- An event of one key leaves the others. -/
theorem isDown_of_other_event {other : Nat} {key : Fin 16} (different : other ≠ key) (down : Bool)
    (machine : Machine) :
    (machine.setKey other down).machine.registers.isDown key = machine.registers.isDown key := by
  unfold setKey
  split
  · rename_i inside
    refine (machine.registers.isDown_setKey ⟨other, inside⟩ key down).trans (if_neg fun same => ?_)
    exact different (congrArg Fin.val same)
  · rfl

/-- **A call moves a key by an event of that key only.** -/
theorem isDown_perform (machine : Machine) (call : operation.isOngoingCall = true) (key : Fin 16) :
    (operation.perform machine).machine.registers.isDown key =
      (operation.keyEvent? key).getD (machine.registers.isDown key) := by
  cases event : operation.keyEvent? key with
  | some down => exact (answer_of_keyEvent event machine).2
  | none =>
    cases operation with
    | tick => exact congrArg (·.get key) (tick_leaves machine).1
    | press other | release other =>
      have different : other ≠ key := by
        rintro rfl
        rw [Operation.keyEvent?, if_pos rfl] at event
        cases event
      exact isDown_of_other_event different _ machine
    | loadProgram program =>
      show (machine.loadProgram program).machine.registers.isDown key = _
      obtain ⟨memory, -, left | left⟩ := loadProgram_machine machine program
      · rw [left]
        rfl
      · rw [left]
        rfl
    | loadFont font =>
      show (machine.loadRegion .charset font).machine.registers.isDown key = _
      obtain ⟨memory, -, left⟩ := loadRegion_machine machine .charset font
      rw [left]
      rfl
    | setRegister register value =>
      show (machine.setRegister register value).machine.registers.isDown key = _
      obtain ⟨v, left⟩ := setRegister_machine machine register value
      rw [left]
      rfl
    | tickTimers => rfl
    | _ => cases call

/-! ### Sessions -/

/-- **A key is where its last event left it**, or where it was before a session without one. -/
theorem isDown_after {operations : List Operation}
    (calls : ∀ operation ∈ operations, operation.isOngoingCall = true) (key : Fin 16) :
    (machine.after operations).registers.isDown key =
      ((operations.filterMap (·.keyEvent? key)).getLast?).getD (machine.registers.isDown key) := by
  induction operations generalizing machine with
  | nil => rfl
  | cons operation rest ih =>
    rw [after_cons, ih fun other member => calls other (List.mem_cons_of_mem _ member),
      isDown_perform machine (calls operation List.mem_cons_self), List.filterMap_cons]
    cases operation.keyEvent? key with
    | none => rfl
    | some down => rw [List.getLast?_cons, Option.getD_some, Option.getD_some]

/-- One call moves a key as its answer says: up by a press that answers yes, down by such a
release. -/
theorem keyMoves_step (machine : Machine) (call : operation.isOngoingCall = true) (key : Fin 16) :
    (machine.keyMoves key true [operation] : ℤ) - machine.keyMoves key false [operation] =
      ((operation.perform machine).machine.registers.isDown key).toInt -
        (machine.registers.isDown key).toInt := by
  rw [isDown_perform machine call key]
  simp only [keyMoves, Nat.add_zero]
  cases event : operation.keyEvent? key with
  | none => simp
  | some down =>
    rw [(answer_of_keyEvent event machine).1, Option.getD_some]
    cases down <;> cases machine.registers.isDown key <;> decide

/-- **The events that move a key, counted in both directions**, differ by as much as its level before
and after the session. -/
theorem keyMoves_sub {operations : List Operation}
    (calls : ∀ operation ∈ operations, operation.isOngoingCall = true) (key : Fin 16) :
    (machine.keyMoves key true operations : ℤ) - machine.keyMoves key false operations =
      ((machine.after operations).registers.isDown key).toInt -
        (machine.registers.isDown key).toInt := by
  induction operations generalizing machine with
  | nil => exact (Int.sub_self _).symm
  | cons operation rest ih =>
    have step := keyMoves_step machine (calls operation List.mem_cons_self) key
    have behind := @ih (operation.perform machine).machine
      fun other member => calls other (List.mem_cons_of_mem _ member)
    simp only [keyMoves, Nat.add_zero] at step
    rw [after_cons, keyMoves, keyMoves]
    push_cast at step ⊢
    omega

/-- **Key events decide about the keys.** A number that names no key or no register is refused, and
nothing changes. An event of a key answers whether it moves the key, and leaves it down after a press
and up after a release. Over a session of ticks and calls without a reset, however they end, a key is
where its last event left it, or where it was if there was none; and the presses that moved it, less
the releases that did, make up for its level at the end less the one at the start. -/
theorem key_events_decide (machine : Machine) (operations : List Operation)
    (calls : ∀ operation ∈ operations, operation.isOngoingCall = true) :
    (∀ (state : Machine) (key : Nat), 16 ≤ key →
      (Operation.press key).perform state = .refused (.noSuchKey key) state ∧
        (Operation.release key).perform state = .refused (.noSuchKey key) state) ∧
    (∀ (state : Machine) (register : Nat) (value : UInt8), 16 ≤ register →
      (Operation.setRegister register value).perform state =
        .refused (.noSuchRegister register) state) ∧
    (∀ (state : Machine) (operation : Operation) (key : Fin 16) (down : Bool),
      operation.keyEvent? key = some down →
      let left := (operation.perform state).machine
      (operation.perform state).answer =
          .ok (.truth (state.registers.isDown key != left.registers.isDown key)) ∧
        left.registers.isDown key = down) ∧
    ∀ key : Fin 16,
      (machine.after operations).registers.isDown key =
        ((operations.filterMap (·.keyEvent? key)).getLast?).getD (machine.registers.isDown key) ∧
      (machine.keyMoves key true operations : ℤ) - machine.keyMoves key false operations =
        ((machine.after operations).registers.isDown key).toInt -
          (machine.registers.isDown key).toInt := by
  refine ⟨fun state key outside => ?_, fun state register value outside => ?_,
    fun state operation key down event => ?_,
    fun key => ⟨isDown_after calls key, keyMoves_sub calls key⟩⟩
  · have refused : ∀ down, state.setKey key down = .refused (.noSuchKey key) state :=
      setKey_outside (Nat.not_lt.mpr outside)
    exact ⟨congrArg Outcome.truth (refused true), congrArg Outcome.truth (refused false)⟩
  · exact congrArg Outcome.plain (dif_neg (Nat.not_lt.mpr outside))
  · obtain ⟨answer, level⟩ := answer_of_keyEvent event state
    intro left
    rw [answer, level]
    exact ⟨rfl, rfl⟩

/-- A key that is pressed twice, released and pressed again, while the machine ticks and a key that does
not exist is released. -/
theorem key_events_decide_again :
    let machine := new (.ofSeed 0)
    let operations : List Operation :=
      [.press 3, .tick, .press 3, .release 16, .release 3, .tickTimers, .press 3]
    (∀ operation ∈ operations, operation.isOngoingCall = true) ∧
      (machine.after operations).registers.isDown 3 = true ∧
      (machine.keyMoves 3 true operations : ℤ) - machine.keyMoves 3 false operations = 1 ∧
      ((Operation.press 3).perform machine).machine.registers.isDown 3 = true ∧
      (Operation.release 16).perform machine = .refused (.noSuchKey 16) machine ∧
      (Operation.setRegister 16 7).perform machine = .refused (.noSuchRegister 16) machine := by
  intro machine operations
  have calls : ∀ operation ∈ operations, operation.isOngoingCall = true := by
    simp [operations, Operation.isOngoingCall, Operation.isHostCall]
  obtain ⟨keys, registers, events, levels⟩ := key_events_decide machine operations calls
  obtain ⟨level, moves⟩ := levels 3
  have down : (machine.after operations).registers.isDown 3 = true := level.trans rfl
  have up : machine.registers.isDown 3 = false := by decide
  rw [down, up] at moves
  exact ⟨calls, down, moves, (events machine (.press 3) 3 true rfl).2,
    (keys machine 16 (by decide)).2, registers machine 16 7 (by decide)⟩

end Machine

end ChipEight
