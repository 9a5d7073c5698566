/-
**Equal images run alike.**

Two machines with the same image differ in where their random bytes come from, so an operation can tell
them apart only by taking such a byte. A request of the host does, and a word of family twelve, which
shows the bits under its mask:

* `perform_sameImage_of_source`, `perform_sameImage_of_other`: operations that take no random byte;
* `perform_sameImage_of_randomWord`: a word that takes one;
* `perform_sameImage`, `performAll_sameImage`: an operation and a session in which every mask is zero;
* `equal_images_run_alike`: all of this.
-/

import ChipEight.Machine.Summary
import ChipEight.Proofs.Session.RandomBytes

namespace ChipEight

/-- Whether two images agree in everything, apart from some bits of one byte register. -/
def Image.AgreesOutside (register : Fin 16) (mask : UInt8) (first second : Image) : Prop :=
  ∃ value, value &&& ~~~mask = first.registers.get register &&& ~~~mask ∧
    second = { first with registers := first.registers.set register value }

/-- Images that agree outside of no bits are equal. -/
theorem Image.AgreesOutside.eq {register : Fin 16} {first second : Image}
    (agree : first.AgreesOutside register 0 second) : first = second := by
  obtain ⟨value, same, rfl⟩ := agree
  obtain rfl : value = first.registers.get register := by simpa using same
  rw [first.registers.set_get_self]

/-- Whether an operation answers and reports the same on two machines. -/
def Operation.AnswersAlike (operation : Operation) (first second : Machine) : Prop :=
  (operation.perform first).answer = (operation.perform second).answer ∧
    (operation.perform first).log = (operation.perform second).log

namespace Machine

variable {first second machine executing : Machine} {operation : Operation} {word : Word}

theorem sameImage_iff :
    first.toImage = second.toImage ↔ second = first.adjust (.source second.source) := by
  obtain ⟨image, source⟩ := first
  obtain ⟨other, otherSource⟩ := second
  constructor
  · rintro rfl
    rfl
  · intro same
    exact (congrArg Machine.toImage same).symm

/-! ### Operations that take no random byte -/

/-- An operation that brings a source does not look at the one that it replaces. -/
theorem perform_sameImage_of_source (same : first.toImage = second.toImage)
    (brings : operation.source? ≠ none) : operation.perform first = operation.perform second := by
  obtain ⟨image, source⟩ := first
  obtain ⟨other, otherSource⟩ := second
  cases same
  cases operation with
  | reset | resetRegisters | reseed => rfl
  | _ => exact absurd rfl brings

theorem perform_sameImage_of_other (same : first.toImage = second.toImage)
    (noRandom : ∀ count, operation ≠ .random count)
    (other : ∀ word ∈ operation.executedWord first, word.family ≠ 0xc) :
    operation.AnswersAlike first second ∧
      (operation.perform first).machine.toImage = (operation.perform second).machine.toImage := by
  by_cases keeps : operation.source? = none
  · rw [sameImage_iff.mp same, Operation.AnswersAlike,
      perform_source_adjust first second.source keeps noRandom other]
    exact ⟨⟨rfl, rfl⟩, rfl⟩
  · rw [Operation.AnswersAlike, perform_sameImage_of_source same keeps]
    exact ⟨⟨rfl, rfl⟩, rfl⟩

/-! ### Words that take a random byte -/

/-- A word of family twelve reports nothing, so only a tick that executes it may. -/
theorem log_source_adjust (source : RandomSource)
    (executes : operation.execution? machine = some (word, executing)) (family : word.family = 0xc) :
    (operation.perform (machine.adjust (.source source))).log = (operation.perform machine).log := by
  have silent : ∀ executing : Machine, (executing.execute word).log = [] := by
    intro executing
    rw [execute_random executing family]
    rfl
  cases operation with
  | execute other =>
    cases executes
    exact (silent (machine.adjust (.source source))).trans (silent machine).symm
  | tick =>
    obtain ⟨running, found⟩ := Operation.execution_tick_iff.mp executes
    have runningToo := (isWaiting_adjust machine (.source source)).trans running
    have adjusted := fetch?_adjust (.source source) found
    show (machine.adjust (.source source)).tick.log = machine.tick.log
    rw [tick_log running found, tick_log runningToo adjusted, silent, silent]
    rfl
  | _ => cases executes

theorem and_and_not (byte mask : UInt8) : byte &&& mask &&& ~~~mask = 0 := by
  rw [UInt8.and_assoc, UInt8.and_not_self, UInt8.and_zero]

/-- **A word of family twelve shows no more of its byte than the bits under its mask.** -/
theorem perform_sameImage_of_randomWord (same : first.toImage = second.toImage)
    (executes : operation.execution? first = some (word, executing)) (family : word.family = 0xc) :
    operation.AnswersAlike first second ∧
      (operation.perform first).machine.toImage.AgreesOutside word.x word.immediate
        (operation.perform second).machine.toImage := by
  rw [sameImage_iff.mp same]
  have adjusted := execution_adjust (.source second.source) executes
  obtain ⟨answer, left⟩ := perform_randomWord executes family
  obtain ⟨otherAnswer, otherLeft⟩ := perform_randomWord adjusted family
  have log := log_source_adjust second.source executes family
  refine ⟨⟨answer.trans otherAnswer.symm, log.symm⟩, second.source.next.1 &&& word.immediate, ?_, ?_⟩
  · rw [left, Registers.get_set_self, and_and_not, and_and_not]
  · rw [left, otherLeft, Registers.set_set]
    rfl

/-! ### Sessions -/

/-- **One operation on two machines with the same image**, if the mask is zero. -/
theorem perform_sameImage (same : first.toImage = second.toImage)
    (noRandom : ∀ count, operation ≠ .random count)
    (zero : ∀ word ∈ operation.executedWord first, word.family = 0xc → word.immediate = 0) :
    operation.AnswersAlike first second ∧
      (operation.perform first).machine.toImage = (operation.perform second).machine.toImage := by
  by_cases takes : ∃ word ∈ operation.executedWord first, word.family = 0xc
  · obtain ⟨word, executed, family⟩ := takes
    obtain ⟨executing, executes⟩ := Operation.mem_executedWord_iff.mp executed
    obtain ⟨alike, agree⟩ := perform_sameImage_of_randomWord same executes family
    rw [zero word executed family] at agree
    exact ⟨alike, agree.eq⟩
  · exact perform_sameImage_of_other same noRandom
      fun word executed family => takes ⟨word, executed, family⟩

/-- **A session on two machines with the same image**, in which every mask is zero. -/
theorem performAll_sameImage (same : first.toImage = second.toImage) {operations : List Operation}
    (noRandom : ∀ operation ∈ operations, ∀ count, operation ≠ .random count)
    (zero : ∀ word ∈ first.executedWords operations, word.family = 0xc → word.immediate = 0) :
    (first.performAll operations).answers = (second.performAll operations).answers ∧
      (first.after operations).toImage = (second.after operations).toImage := by
  induction operations generalizing first second with
  | nil => exact ⟨rfl, same⟩
  | cons operation rest ih =>
    obtain ⟨⟨answer, log⟩, images⟩ := perform_sameImage same
      (noRandom operation List.mem_cons_self)
      fun word executed => zero word (List.mem_append_left _ executed)
    obtain ⟨answers, after⟩ := ih images
      (fun other member => noRandom other (List.mem_cons_of_mem _ member))
      fun word executed => zero word (List.mem_append_right _ executed)
    exact ⟨List.cons_eq_cons.mpr ⟨Prod.ext answer log, answers⟩, after⟩

/-- **Equal images run alike.** On two machines with the same image every session without requests for
random bytes gives the same answers and logs, as long as the words of family twelve in it have a mask
of zero, and leaves the same image, which is all that a host can read. A word of family twelve with
any mask answers and reports the same, and leaves images that agree outside the bits of its mask in
its register. -/
theorem equal_images_run_alike (same : first.toImage = second.toImage) :
    (∀ operations : List Operation,
      (∀ operation ∈ operations, ∀ count, operation ≠ .random count) →
      (∀ word ∈ first.executedWords operations, word.family = 0xc → word.immediate = 0) →
      (first.performAll operations).answers = (second.performAll operations).answers ∧
        (first.after operations).toImage = (second.after operations).toImage ∧
        (first.after operations).summary = (second.after operations).summary ∧
        (first.after operations).isSounding = (second.after operations).isSounding) ∧
    ∀ (operation : Operation) (word : Word) (executing : Machine),
      operation.execution? first = some (word, executing) → word.family = 0xc →
      operation.AnswersAlike first second ∧
        (operation.perform first).machine.toImage.AgreesOutside word.x word.immediate
          (operation.perform second).machine.toImage := by
  refine ⟨?_, fun _ _ _ => perform_sameImage_of_randomWord same⟩
  intro operations noRandom zero
  obtain ⟨answers, images⟩ := performAll_sameImage same noRandom zero
  refine ⟨answers, images, ?_, ?_⟩
  · rw [sameImage_iff.mp images]
    rfl
  · rw [sameImage_iff.mp images]
    rfl

/-- Machines with different seeds execute a word with a mask of zero and refuse another one alike. Then
a word with a mask leaves them different in four bits at most. -/
theorem equal_images_run_alike_masked :
    let first : Machine := { new (.ofSeed 0) with
      memory := ⟨#[0xc3, 0x00, 0xff, 0xff]⟩
      screen := ⟨#[]⟩ }
    let second : Machine := { first with source := .ofSeed 1 }
    let operations : List Operation := [.tick, .press 3, .tick]
    let masked : Operation := .execute 0xc30f
    first.executedWords operations = [0xc300, 0xffff] ∧
      (first.performAll operations).answers = (second.performAll operations).answers ∧
      masked.AnswersAlike first second ∧
      (masked.perform first).machine.toImage.AgreesOutside 3 0x0f
        (masked.perform second).machine.toImage := by
  intro first second operations masked
  have words : first.executedWords operations = [0xc300, 0xffff] := by decide
  have same : first.toImage = second.toImage := rfl
  have noRandom : ∀ operation ∈ operations, ∀ count, operation ≠ .random count := by
    simp [operations]
  have zero : ∀ word ∈ first.executedWords operations, word.family = 0xc → word.immediate = 0 := by
    rw [words]
    simp [show Word.immediate 0xc300 = 0 from rfl, show Word.family 0xffff = 0xf from rfl]
  obtain ⟨sessions, masks⟩ := equal_images_run_alike same
  exact ⟨words, (sessions operations noRandom zero).1, masks masked 0xc30f first rfl rfl⟩

end Machine

end ChipEight
