/-
**Calls and returns.**

A call puts the counter into the next free slot of the stack, and the return that finds the stack as
high again takes it from there. Between the two the stack may grow and shrink at will, as long as it
does not fall to the height that the call found:

* `StackFrame`: what a call leaves below the pointer. `StackFrame.step` keeps it over one operation
  and counts calls and returns, `StackFrame.run` over a session;
* `perform_idle`: an operation that executes no word leaves the stack alone, unless it is one that
  sets the stack itself (`Operation.keepsStack`);
* `call_returns`: the discipline.

A call or a return counts if it does not go out of bounds.
-/

import Mathlib.Data.List.Infix
import ChipEight.Proofs.Execution.Frame
import ChipEight.Proofs.Session.HostCall

namespace ChipEight

/-! ### Counting -/

/-- The word of an outcome, unless it went out of bounds. -/
def Outcome.completed (word : Word) (outcome : Outcome Unit) : List Word :=
  if outcome.answer = .error .outOfBounds then [] else [word]

namespace Operation

/-- The word that an operation executes without going out of bounds, if there is one. -/
def completed (machine : Machine) (operation : Operation) : List Word :=
  match operation.execution? machine with
  | none => []
  | some (word, executing) => (executing.execute word).completed word

/-- Whether an operation leaves the stack alone, apart from words that it executes. -/
def keepsStack : Operation → Bool
  | reset _ | resetRegisters _ | setPointer _ | setSlot _ _ => false
  | _ => true

end Operation

/-- The words that a session executes without going out of bounds. -/
def Machine.completedWords (machine : Machine) : List Operation → List Word
  | [] => []
  | operation :: rest =>
    operation.completed machine ++ (operation.perform machine).machine.completedWords rest

/-- How many words are calls. -/
def callCount (words : List Word) : Nat :=
  words.countP fun word => word.family == 0x2

/-- How many words are returns. -/
def returnCount (words : List Word) : Nat :=
  words.count 0x00ee

/-- In bounds, a word moves the pointer exactly if it is a call or a return. -/
theorem Machine.Flow.balance {word : Word} {before : Registers} {outcome : Outcome Unit}
    (flow : Machine.Flow word before outcome)
    (reached : word = 0x00ee → 0 < before.sp.toNat ∧ before.sp.toNat ≤ 12) :
    outcome.machine.registers.sp.toNat + returnCount (outcome.completed word) =
      before.sp.toNat + callCount (outcome.completed word) := by
  unfold Outcome.completed
  cases flow with
  | keeps noReturn noCall pointer stack counter =>
    rw [pointer]
    split
    · rfl
    · simp [callCount, returnCount, noCall, noReturn]
  | calls family success room pointer stack counter =>
    have noReturn : word ≠ 0x00ee := by
      rintro rfl
      cases family
    rw [success, pointer]
    simp [callCount, returnCount, family, noReturn]
  | overflows family fault full registers =>
    rw [fault, registers]
    rfl
  | returns itself success slot pointer lowered stack counter =>
    subst itself
    rw [success, lowered, pointer]
    rfl
  | underflows itself fault outside lowered stack counter =>
    obtain ⟨used, within⟩ := reached itself
    rcases outside with empty | past
    · rw [empty] at used
      cases used
    · omega

theorem callCount_append (first second : List Word) :
    callCount (first ++ second) = callCount first + callCount second :=
  List.countP_append

theorem returnCount_append (first second : List Word) :
    returnCount (first ++ second) = returnCount first + returnCount second :=
  List.count_append

/-! ### Frames -/

/-- **What a call leaves on the stack**: above the height that it found there is the counter of the
caller, and below it nothing has changed. -/
structure StackFrame (caller registers : Registers) : Prop where
  above : caller.sp.toNat < registers.sp.toNat
  within : registers.sp.toNat ≤ 12
  address : registers.stack[caller.sp.toNat]? = some caller.pc
  below : ∀ slot < caller.sp.toNat, registers.stack[slot]? = caller.stack[slot]?

namespace StackFrame

variable {caller before after : Registers} {outcome : Outcome Unit} {word : Word}

/-- A frame is a matter of the stack and its pointer. -/
theorem congr (frame : StackFrame caller before) (same : after.stackState = before.stackState) :
    StackFrame caller after := by
  obtain ⟨pointer, stack⟩ := Prod.mk.inj same
  constructor
  · rw [pointer]
    exact frame.above
  · rw [pointer]
    exact frame.within
  · rw [stack]
    exact frame.address
  · rw [stack]
    exact frame.below

/-- A frame outlasts a word, unless the word brings the pointer down to it. -/
theorem flow (frame : StackFrame caller before) (flow : Machine.Flow word before outcome)
    (above : caller.sp.toNat < outcome.machine.registers.sp.toNat) :
    StackFrame caller outcome.machine.registers := by
  have higher := frame.above
  cases flow with
  | keeps noReturn noCall pointer stack counter => exact frame.congr (Prod.ext pointer stack)
  | overflows family fault full registers => rwa [registers]
  | calls family success room pointer stack counter =>
    -- the slot of the new call lies above the frame
    have others : ∀ slot ≤ caller.sp.toNat,
        outcome.machine.registers.stack[slot]? = before.stack[slot]? := by
      intro slot low
      rw [stack, Vector.getElem?_setIfInBounds_ne (by omega)]
    refine ⟨above, by omega, ?_, fun slot low => ?_⟩
    · rw [others _ (Nat.le_refl _), frame.address]
    · rw [others slot (Nat.le_of_lt low), frame.below slot low]
  | returns itself success slot pointer lowered stack counter =>
    have within := frame.within
    refine ⟨above, by omega, ?_, ?_⟩
    · rw [stack, frame.address]
    · rw [stack]
      exact frame.below
  | underflows itself fault outside lowered stack counter =>
    have within := frame.within
    rcases outside with empty | past
    · rw [empty] at higher
      cases higher
    · omega

/-- A call that finds room leaves a frame. -/
theorem of_call (flow : Machine.Flow word caller outcome) (isCall : word.family = 0x2)
    (room : caller.sp.toNat < 12) : StackFrame caller outcome.machine.registers := by
  cases flow with
  | keeps noReturn noCall pointer stack counter => exact absurd isCall noCall
  | calls family success room pointer stack counter =>
    refine ⟨by omega, by omega, ?_, fun slot low => ?_⟩
    · rw [stack, Vector.getElem?_setIfInBounds_self, if_pos room]
    · rw [stack, Vector.getElem?_setIfInBounds_ne (by omega)]
  | overflows family fault full registers => omega
  | returns itself | underflows itself =>
    subst itself
    cases isCall

/-- The return that finds a frame on top goes back to its caller. -/
theorem return_of_top (frame : StackFrame caller before)
    (flow : Machine.Flow 0x00ee before outcome) (top : before.sp.toNat = caller.sp.toNat + 1) :
    outcome.answer = .ok () ∧ outcome.machine.registers.pc = caller.pc ∧
      outcome.machine.registers.sp = caller.sp ∧
      ∀ slot < caller.sp.toNat, outcome.machine.registers.stack[slot]? = caller.stack[slot]? := by
  have within := frame.within
  cases flow with
  | keeps noReturn => exact absurd rfl noReturn
  | calls family | overflows family => cases family
  | returns itself success slot pointer lowered stack counter =>
    have place : slot.val = caller.sp.toNat := by omega
    have address := frame.address
    rw [← place, Vector.getElem?_eq_getElem slot.isLt] at address
    refine ⟨success, counter.trans (Option.some.inj address), ?_, ?_⟩
    · exact UInt16.toNat_inj.mp (lowered.trans place)
    · rw [stack]
      exact frame.below
  | underflows itself fault outside lowered stack counter =>
    rcases outside with empty | past
    · rw [empty] at top
      cases top
    · omega

end StackFrame

/-! ### Operations -/

namespace Machine

variable {machine executing : Machine} {operation : Operation} {word : Word}

/-- The flow of an operation that executes a word. -/
theorem perform_flow (executes : operation.execution? machine = some (word, executing)) :
    ∃ outcome, Flow word executing.registers outcome ∧
      (operation.perform machine).machine = outcome.machine ∧
      (operation.perform machine).answer = outcome.answer.map (fun _ => .done) ∧
      operation.completed machine = outcome.completed word := by
  obtain ⟨left, answer⟩ := Operation.perform_execution executes
  refine ⟨executing.execute word, (perform_effect word (executing.note word)).flow, left, answer, ?_⟩
  unfold Operation.completed
  rw [executes]

/-- Fetching leaves the stack alone. -/
theorem execution_stackState (executes : operation.execution? machine = some (word, executing)) :
    executing.registers.stackState = machine.registers.stackState := by
  rw [Operation.execution_registers executes]
  rfl

theorem pollKeys_stackState (machine : Machine) :
    machine.pollKeys.machine.registers.stackState = machine.registers.stackState := by
  unfold pollKeys
  split <;> rfl

theorem tick_idle_stackState (idle : Operation.execution? machine .tick = none) :
    machine.tick.machine.registers.stackState = machine.registers.stackState := by
  cases waiting : machine.isWaiting with
  | true =>
    rw [tick_waiting waiting]
    exact pollKeys_stackState machine
  | false =>
    have unfetched : machine.fetch? = none := by
      simpa [Operation.execution?, waiting] using idle
    rw [tick_unfetched waiting unfetched]
    rfl

/-- An operation that executes no word leaves the stack alone. -/
theorem perform_idle (keeps : operation.keepsStack = true)
    (idle : operation.execution? machine = none) :
    (operation.perform machine).machine.registers.stackState = machine.registers.stackState := by
  by_cases isTick : operation = .tick
  · subst isTick
    exact tick_idle_stackState idle
  by_cases call : operation.isHostCall = true
  · have noReset : ∀ source, operation ≠ .reset source := by
      rintro source rfl
      cases keeps
    obtain ⟨memory, registers, loaded, -, same, -, left⟩ :=
      hostCall_machine machine call isTick noReset
    rw [left]
    exact same
  -- the operations that are left change other parts of the machine directly
  cases operation with
  | execute word => cases idle
  | resetRegisters | setPointer | setSlot => cases keeps
  | tick | loadProgram | loadFont | press | release | setRegister | tickTimers | reset =>
    exact absurd rfl call
  | pollKeys => exact pollKeys_stackState machine
  | fetch =>
    unfold Operation.perform
    cases found : machine.fetch? with
    | none => rfl
    | some pair =>
      obtain ⟨-, moved⟩ := fetch?_eq_some_iff.mp found
      exact (congrArg (·.registers.stackState) moved).trans rfl
  | loadRegion region payload =>
    obtain ⟨memory, -, left⟩ := loadRegion_machine machine region payload
    exact (congrArg (·.registers.stackState) left).trans rfl
  | store | clearRegion =>
    unfold Operation.perform Operation.changeMemory
    simp only
    split <;> rfl
  | overwrite | setPixel | togglePixel | setKey =>
    unfold Operation.perform
    simp only
    split <;> rfl
  | _ => rfl

end Machine

/-! ### The discipline -/

namespace StackFrame

variable {caller : Registers} {machine : Machine}

/-- **One operation keeps a frame**, if the pointer stays above it, and moves the pointer by the call
or the return that it completes. -/
theorem step (frame : StackFrame caller machine.registers) {operation : Operation}
    (keeps : operation.keepsStack = true)
    (above : caller.sp.toNat < (operation.perform machine).machine.registers.sp.toNat) :
    StackFrame caller (operation.perform machine).machine.registers ∧
      (operation.perform machine).machine.registers.sp.toNat +
          returnCount (operation.completed machine) =
        machine.registers.sp.toNat + callCount (operation.completed machine) := by
  cases executes : operation.execution? machine with
  | none =>
    have nothing : operation.completed machine = [] := by
      unfold Operation.completed
      rw [executes]
    have same := Machine.perform_idle keeps executes
    refine ⟨frame.congr same, ?_⟩
    rw [nothing, (Prod.mk.inj same).1]
    rfl
  | some pair =>
    obtain ⟨word, executing⟩ := pair
    obtain ⟨outcome, flow, left, -, completed⟩ := Machine.perform_flow executes
    have same := Machine.execution_stackState executes
    have current := frame.congr same
    have used : 0 < executing.registers.sp.toNat := Nat.zero_lt_of_lt current.above
    rw [left] at above ⊢
    rw [completed, ← (Prod.mk.inj same).1]
    exact ⟨current.flow flow above, flow.balance fun _ => ⟨used, current.within⟩⟩

/-- **A session keeps a frame**, if the pointer stays above it, and moves the pointer by the calls and
returns that it completes. -/
theorem run (frame : StackFrame caller machine.registers)
    {operations : List Operation} (keeps : ∀ operation ∈ operations, operation.keepsStack = true)
    (above : ∀ taken, taken <+: operations →
      caller.sp.toNat < (machine.after taken).registers.sp.toNat) :
    StackFrame caller (machine.after operations).registers ∧
      (machine.after operations).registers.sp.toNat +
          returnCount (machine.completedWords operations) =
        machine.registers.sp.toNat + callCount (machine.completedWords operations) := by
  induction operations generalizing machine with
  | nil => exact ⟨frame, rfl⟩
  | cons operation rest ih =>
    have first := above [operation] ⟨rest, rfl⟩
    obtain ⟨kept, balance⟩ := frame.step (keeps operation List.mem_cons_self) first
    obtain ⟨frameAfter, balanceAfter⟩ := ih kept
      (fun other member => keeps other (List.mem_cons_of_mem _ member))
      (fun taken isPrefix => above (operation :: taken) (List.cons_prefix_cons.mpr ⟨rfl, isPrefix⟩))
    refine ⟨frameAfter, ?_⟩
    rw [Machine.after_cons, Machine.completedWords, returnCount_append, callCount_append]
    omega

end StackFrame

namespace Machine

/-- **Calls and returns are nested.** An operation calls on a stack with a free slot, and in the
session after it the pointer stays above the height that the call found. Then at every moment the
pointer is as far above that height as calls outnumber returns, and a return that finds the pointer
one above it goes back to the caller: to its counter, its pointer, and its part of the stack. -/
theorem call_returns {machine caller : Machine} {calling : Operation} {word : Word}
    (executes : calling.execution? machine = some (word, caller)) (isCall : word.family = 0x2)
    (room : machine.registers.sp.toNat < 12) {during : List Operation}
    (keeps : ∀ operation ∈ during, operation.keepsStack = true)
    (above : ∀ taken, taken <+: during →
      machine.registers.sp.toNat < (machine.after (calling :: taken)).registers.sp.toNat) :
    (∀ taken, taken <+: during →
      (machine.after (calling :: taken)).registers.sp.toNat +
          returnCount (machine.completedWords (calling :: taken)) =
        machine.registers.sp.toNat + callCount (machine.completedWords (calling :: taken))) ∧
    ∀ returning executing,
      returning.execution? (machine.after (calling :: during)) = some (0x00ee, executing) →
      (machine.after (calling :: during)).registers.sp.toNat = machine.registers.sp.toNat + 1 →
        (returning.perform (machine.after (calling :: during))).answer = .ok .done ∧
        (machine.after (calling :: during ++ [returning])).registers.pc = caller.registers.pc ∧
        (machine.after (calling :: during ++ [returning])).registers.sp = machine.registers.sp ∧
        ∀ slot < machine.registers.sp.toNat,
          (machine.after (calling :: during ++ [returning])).registers.stack[slot]? =
            machine.registers.stack[slot]? := by
  obtain ⟨outcome, flow, left, -, completed⟩ := perform_flow executes
  obtain ⟨pointer, stack⟩ := Prod.mk.inj (execution_stackState executes)
  rw [← pointer] at room above ⊢
  rw [← stack]
  have frame : StackFrame caller.registers (calling.perform machine).machine.registers := by
    rw [left]
    exact .of_call flow isCall room
  have noReturn : word ≠ 0x00ee := by
    rintro rfl
    cases isCall
  have called : (calling.perform machine).machine.registers.sp.toNat +
      returnCount (calling.completed machine) =
        caller.registers.sp.toNat + callCount (calling.completed machine) := by
    rw [left, completed]
    exact flow.balance fun itself => absurd itself noReturn
  refine ⟨fun taken isPrefix => ?_, fun returning executing again top => ?_⟩
  · obtain ⟨-, balance⟩ := frame.run
      (fun operation member => keeps operation (isPrefix.subset member))
      (fun earlier isEarlier => above earlier (isEarlier.trans isPrefix))
    rw [after_cons, completedWords, returnCount_append, callCount_append]
    omega
  · obtain ⟨kept, -⟩ := frame.run keeps above
    obtain ⟨outcome, flow, left, answer, -⟩ := perform_flow again
    have same := execution_stackState again
    rw [← (Prod.mk.inj same).1] at top
    obtain ⟨success, counter, lowered, below⟩ := (kept.congr same).return_of_top flow top
    have last : machine.after (calling :: during ++ [returning]) = outcome.machine :=
      (after_concat machine _ _).trans left
    rw [last, answer, success]
    exact ⟨rfl, counter, lowered, below⟩

/-- A call at the last free slot but one, with another call and its return inside. -/
theorem call_returns_nested :
    let machine : Machine := { new (.ofSeed 0) with
      memory := ⟨#[]⟩
      screen := ⟨#[]⟩
      registers.sp := 10
      registers.pc := 0x204 }
    let during : List Operation := [.execute 0x2400, .execute 0x00ee]
    (machine.after (.execute 0x2300 :: during ++ [.execute 0x00ee])).registers.pc = 0x204 := by
  intro machine during
  have keeps : ∀ operation ∈ during, operation.keepsStack = true := by
    simp [during, Operation.keepsStack]
  have above : ∀ taken, taken <+: during → machine.registers.sp.toNat <
      (machine.after (.execute 0x2300 :: taken)).registers.sp.toNat := by
    intro taken isPrefix
    rcases List.prefix_cons_iff.mp isPrefix with rfl | ⟨rest, rfl, inner⟩
    · decide
    · rcases List.prefix_cons_iff.mp inner with rfl | ⟨last, rfl, innermost⟩
      · decide
      · obtain rfl := List.prefix_nil.mp innermost
        decide
  exact ((call_returns rfl rfl (by decide) keeps above).2 (.execute 0x00ee) _ rfl (by decide)).2.1

end Machine

end ChipEight
