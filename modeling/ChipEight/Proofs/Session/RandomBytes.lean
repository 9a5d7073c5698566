/-
**One stream of random bytes.**

Random bytes are taken by a host that asks for some (`Operation.random`) and by the words of family
twelve, one each. Everything else overlooks where they come from, unless it brings another source
(`Operation.source?`):

* `perform_source_adjust`: an operation that takes no random byte;
* `perform_randomWord`: a word that takes one;
* `perform_draws`: every operation takes as many bytes as `Operation.draws` says;
* `Machine.HasDrawn`, with `HasDrawn.source`: so after any run the source is behind the bytes that were
  taken since the seed;
* `random_bytes_form_one_stream`: which of its bytes each taker gets.
-/

import ChipEight.Proofs.Random
import ChipEight.Proofs.Session.Adjustment

namespace ChipEight

namespace Operation

/-- The source that random bytes come from after an operation, if it brings one. -/
def source? : Operation → Option RandomSource
  | reset source | resetRegisters source => some source
  | reseed seed => some (.ofSeed seed)
  | _ => none

/-- How many random bytes an operation takes. -/
def draws (machine : Machine) : Operation → Nat
  | random count => count
  | operation => (operation.executedWord machine).countP fun word => word.family = 0xc

end Operation

/-- How many random bytes a session takes. -/
def Machine.draws (machine : Machine) : List Operation → Nat
  | [] => 0
  | operation :: rest => operation.draws machine + (operation.perform machine).machine.draws rest

namespace Machine

variable {machine executing : Machine} {operation : Operation} {word : Word}

/-! ### Operations that take no random byte -/

/-- Only the words of family twelve look at the source. -/
theorem overlooks_source (registers : Registers) (source : RandomSource) (other : word.family ≠ 0xc) :
    word.Overlooks registers (.source source) := by
  intro instruction reads
  cases reads with
  | random family => exact other family
  | _ => trivial

/-- **An operation that takes no random byte** and brings no source overlooks where random bytes come
from. -/
theorem perform_source_adjust (machine : Machine) (source : RandomSource)
    (keeps : operation.source? = none) (noRandom : ∀ count, operation ≠ .random count)
    (other : ∀ word ∈ operation.executedWord machine, word.family ≠ 0xc) :
    operation.perform (machine.adjust (.source source)) =
      (operation.perform machine).adjust (.source source) := by
  have overlooks : ∀ word ∈ operation.executedWord machine,
      word.Overlooks machine.registers (.source source) :=
    fun word executes => overlooks_source machine.registers source (other word executes)
  by_cases isTick : operation = .tick
  · subst isTick
    have ticked : (machine.adjust (.source source)).tick = machine.tick.adjust (.source source) :=
      tick_adjust (fun _ => nofun) (fun _ _ => nofun) overlooks
    exact congrArg Outcome.plain ticked
  by_cases call : operation.isOngoingCall = true
  · exact hostCall_adjust machine _ (fun _ _ => nofun) (fun _ => nofun) call isTick
  -- the operations that are left change parts of the machine directly
  obtain ⟨image, old⟩ := machine
  cases operation with
  | tick | loadProgram | loadFont | press | release | setRegister | tickTimers =>
    exact absurd rfl call
  | reset | resetRegisters | reseed => cases keeps
  | random count => exact absurd rfl (noRandom count)
  | execute word =>
    exact congrArg Outcome.plain (execute_adjust (overlooks word (List.mem_singleton_self word)))
  | pollKeys => exact congrArg Outcome.truth (pollKeys_adjust _ (.source source) fun _ => nofun)
  | fetch =>
    unfold Operation.perform
    cases found : fetch? ⟨image, old⟩ with
    | none =>
      simp only [unfetched_adjust (.source source) found]
      rfl
    | some pair =>
      simp only [fetch?_adjust (.source source) found]
      rfl
  | loadRegion region payload =>
    exact congrArg Outcome.plain (loadRegion_adjust _ region payload)
  | store | clearRegion =>
    unfold Operation.perform Operation.changeMemory
    simp only [adjust]
    split <;> rfl
  | overwrite | setPixel | togglePixel | setSlot | setKey =>
    unfold Operation.perform
    simp only [adjust]
    split <;> rfl
  | _ => rfl

/-- Such an operation leaves the source. -/
theorem perform_source (machine : Machine) (keeps : operation.source? = none)
    (noRandom : ∀ count, operation ≠ .random count)
    (other : ∀ word ∈ operation.executedWord machine, word.family ≠ 0xc) :
    (operation.perform machine).machine.source = machine.source :=
  congrArg (·.machine.source) (perform_source_adjust machine machine.source keeps noRandom other)

/-- An operation that brings a source leaves it as it came. -/
theorem perform_brings (machine : Machine) {source : RandomSource}
    (brings : operation.source? = some source) :
    (operation.perform machine).machine.source = source := by
  cases operation with
  | reset | resetRegisters | reseed => exact Option.some.inj brings
  | _ => cases brings

/-! ### Words that take a random byte -/

theorem execute_random (machine : Machine) (family : word.family = 0xc) :
    machine.execute word = .done () ((machine.note word).random word.x word.immediate) := by
  rw [execute, perform_of_reads (.random family), Instruction.meaning, Registers.named_val]
  rfl

/-- **A word of family twelve takes one byte**, which goes into its register under the mask. -/
theorem perform_randomWord (executes : operation.execution? machine = some (word, executing))
    (family : word.family = 0xc) :
    (operation.perform machine).answer = .ok .done ∧
      (operation.perform machine).machine = { executing.note word with
        registers := executing.registers.set word.x (machine.source.next.1 &&& word.immediate)
        source := machine.source.next.2 } := by
  -- fetching takes no random byte
  have source : executing.source = machine.source :=
    congrArg (·.source) (Operation.execution_machine executes)
  obtain ⟨left, answer⟩ := Operation.perform_execution executes
  rw [answer, left, execute_random executing family, ← source]
  exact ⟨rfl, rfl⟩

/-! ### All operations -/

/-- An operation other than a request of the host takes a byte for each word of family twelve that it
executes. -/
theorem draws_eq (machine : Machine) (noRandom : ∀ count, operation ≠ .random count) :
    operation.draws machine =
      (operation.executedWord machine).countP fun word => word.family = 0xc := by
  cases operation with
  | random count => exact absurd rfl (noRandom count)
  | _ => rfl

theorem draws_of_randomWord (executes : operation.execution? machine = some (word, executing))
    (family : word.family = 0xc) : operation.draws machine = 1 := by
  have noRandom : ∀ count, operation ≠ .random count := by
    rintro count rfl
    cases executes
  rw [draws_eq machine noRandom, Operation.executedWord_of executes, List.countP_singleton,
    decide_eq_true family]
  rfl

theorem draws_of_no_randomWord (machine : Machine) (noRandom : ∀ count, operation ≠ .random count)
    (other : ∀ word ∈ operation.executedWord machine, word.family ≠ 0xc) :
    operation.draws machine = 0 := by
  rw [draws_eq machine noRandom]
  exact List.countP_eq_zero.mpr fun word executed => decide_eq_true_iff.not.mpr (other word executed)

/-- **An operation takes as many bytes as `Operation.draws` says**, unless it brings a source. -/
theorem perform_draws (machine : Machine) (keeps : operation.source? = none) :
    (operation.perform machine).machine.source =
      { machine.source with position := machine.source.position + operation.draws machine } := by
  by_cases isRandom : ∃ count, operation = .random count
  · obtain ⟨count, rfl⟩ := isRandom
    exact congrArg Prod.snd (machine.source.take_eq count)
  have noRandom : ∀ count, operation ≠ .random count := fun count is => isRandom ⟨count, is⟩
  by_cases takes : ∃ word executing, operation.execution? machine = some (word, executing) ∧
      word.family = 0xc
  · obtain ⟨word, executing, executes, family⟩ := takes
    rw [draws_of_randomWord executes family, (perform_randomWord executes family).2]
    rfl
  · have other : ∀ word ∈ operation.executedWord machine, word.family ≠ 0xc := by
      intro word executed family
      obtain ⟨executing, executes⟩ := Operation.mem_executedWord_iff.mp executed
      exact takes ⟨word, executing, executes, family⟩
    rw [draws_of_no_randomWord machine noRandom other, perform_source machine keeps noRandom other]
    rfl

/-! ### Runs -/

/-- **The machines that have taken a number of random bytes** since these come from a seed. Whatever
else happens to their images does not matter. -/
inductive HasDrawn (seed : UInt64) : Machine → Nat → Prop
  | new : HasDrawn seed (new (.ofSeed seed)) 0
  | seeded (machine : Machine) {operation : Operation}
      (seeds : operation.source? = some (.ofSeed seed)) :
      HasDrawn seed (operation.perform machine).machine 0
  | performed {machine : Machine} {count : Nat} (run : HasDrawn seed machine count)
      {operation : Operation} (keeps : operation.source? = none) :
      HasDrawn seed (operation.perform machine).machine (count + operation.draws machine)
  | replaced {machine : Machine} {count : Nat} (run : HasDrawn seed machine count) (image : Image) :
      HasDrawn seed { machine with toImage := image } count

variable {seed : UInt64} {count : Nat}

/-- **The source is behind the bytes that were taken.** -/
theorem HasDrawn.source (run : machine.HasDrawn seed count) :
    machine.source = { RandomSource.ofSeed seed with position := count } := by
  induction run with
  | new => rfl
  | seeded machine seeds => exact perform_brings machine seeds
  | performed run keeps ih => rw [perform_draws _ keeps, ih]
  | replaced run image ih => exact ih

/-- A session takes its bytes one after the other. -/
theorem HasDrawn.after (run : machine.HasDrawn seed count) (operations : List Operation)
    (keeps : ∀ operation ∈ operations, operation.source? = none) :
    (machine.after operations).HasDrawn seed (count + machine.draws operations) := by
  induction operations generalizing machine count with
  | nil => exact run
  | cons operation rest ih =>
    have next := run.performed (keeps operation List.mem_cons_self)
    have last := ih next fun other member => keeps other (List.mem_cons_of_mem _ member)
    rw [Nat.add_assoc] at last
    exact last

/-- **Random bytes form one stream.** It is the one that a reader of blocks gives out for the seed. When
a number of its bytes have been taken, a host that asks for some gets the next ones; a word of family
twelve takes the next one, whatever its mask, and puts it under the mask into its register; any other
operation that brings no source takes none. -/
theorem random_bytes_form_one_stream (run : machine.HasDrawn seed count) :
    (∀ more, ((BlockReader.ofSeed seed).take more).1 =
      (List.range more).map (RandomSource.stream seed)) ∧
    machine.source = { RandomSource.ofSeed seed with position := count } ∧
    (∀ more, ((Operation.random more).perform machine).answer =
        .ok (.bytes ((List.range more).map fun place => RandomSource.stream seed (count + place))) ∧
      ((Operation.random more).perform machine).machine.source =
        { RandomSource.ofSeed seed with position := count + more }) ∧
    (∀ (operation : Operation) (word : Word) (executing : Machine),
      operation.execution? machine = some (word, executing) → word.family = 0xc →
      (operation.perform machine).answer = .ok .done ∧
        (operation.perform machine).machine.registers =
          executing.registers.set word.x (RandomSource.stream seed count &&& word.immediate) ∧
        (operation.perform machine).machine.source =
          { RandomSource.ofSeed seed with position := count + 1 }) ∧
    (∀ operation : Operation, operation.source? = none → (∀ more, operation ≠ .random more) →
      (∀ word ∈ operation.executedWord machine, word.family ≠ 0xc) →
      (operation.perform machine).machine.source = machine.source) := by
  have source := run.source
  refine ⟨BlockReader.take_ofSeed seed, source, ?_, ?_, ?_⟩
  · intro more
    refine ⟨?_, (run.performed rfl).source⟩
    show Except.ok (Answer.bytes (machine.source.take more).1) = _
    rw [machine.source.take_eq, source]
    rfl
  · intro operation word executing executes family
    obtain ⟨answer, left⟩ := perform_randomWord executes family
    rw [left, source]
    exact ⟨answer, rfl, rfl⟩
  · intro operation keeps noRandom other
    exact perform_source machine keeps noRandom other

/-- A machine takes a byte for a mask of zero and refuses a word. Then a host gets the next bytes, or
another word the first of them, or nobody, if the host only looks for a key. -/
theorem random_bytes_form_one_stream_masked :
    let machine : Machine := { new (.ofSeed 0) with
      memory := ⟨#[0xc0, 0x00, 0xff, 0xff]⟩
      screen := ⟨#[]⟩ }
    let seeded := ((Operation.reseed 1).perform machine).machine
    let run := seeded.after [.tick, .tick]
    run.HasDrawn 1 1 ∧
      ((Operation.random 2).perform run).answer =
        .ok (.bytes ((List.range 2).map fun place => RandomSource.stream 1 (1 + place))) ∧
      ((Operation.execute 0xc30f).perform run).machine.registers =
        run.registers.set 3 (RandomSource.stream 1 1 &&& 0x0f) ∧
      (Operation.pollKeys.perform run).machine.source = run.source := by
  intro machine seeded run
  have start : seeded.HasDrawn 1 0 := .seeded machine rfl
  have drawn : seeded.draws [.tick, .tick] = 1 := by decide
  have taken : run.HasDrawn 1 (0 + seeded.draws [.tick, .tick]) :=
    start.after [.tick, .tick] (by simp [Operation.source?])
  rw [drawn] at taken
  obtain ⟨-, -, asked, executed, others⟩ := random_bytes_form_one_stream taken
  exact ⟨taken, (asked 2).1, (executed (.execute 0xc30f) 0xc30f run rfl rfl).2.1,
    others .pollKeys rfl (fun _ => nofun) (fun _ => nofun)⟩

end Machine

end ChipEight
