/-
**Debugging only observes.**

A machine that is debugged reports every instruction before it executes it, and does not do anything
else for it. Two machines that agree in everything but their debugging go on doing so, answer alike
and log the same lines apart from the reports:

* `perform_debugging`: one call of a host; `performAll_debugging`: a session of them;
* `reports_of_call`: a machine that is debugged reports the ticks that it counts, and no others;
* `unknown_warning`: a tick that refuses a word warns of it once, with the address of the word;
* `debugging_only_observes`: all of this in every session.
-/

import ChipEight.Proofs.Execution.Faults
import ChipEight.Proofs.Execution.Frame
import ChipEight.Proofs.Session.Adjustment

namespace ChipEight

/-! ### Lines of a log -/

/-- The lines of a log at one level. -/
def linesAt (level : String) (log : List LogEntry) : List String :=
  (log.filter fun entry => entry.level == level).map LogEntry.line

/-- The lines of a log at the other levels. -/
def linesBesides (level : String) (log : List LogEntry) : List String :=
  (log.filter fun entry => entry.level != level).map LogEntry.line

/-- The line that reports an instruction: how many were counted before it, where it is, and its
disassembly in colour. -/
def reportLine (cycles : UInt64) (address : UInt16) (word : Word) : String :=
  "DEBUG " ++ (Style.grey.apply (Column.right 3 (Numeral.decimal cycles.toNat)) ++ " "
    ++ Numeral.hex 3 address.toNat ++ ": " ++ Column.left 36 (word.disassemble .coloured))

/-- The line that warns of an unknown word at an address. -/
def warningLine (address : UInt16) (word : Word) : String :=
  "WARN " ++ (Numeral.hex 3 address.toNat ++ ": unknown opcode " ++ word.text)

theorem linesAt_append (level : String) (first second : List LogEntry) :
    linesAt level (first ++ second) = linesAt level first ++ linesAt level second := by
  unfold linesAt
  rw [List.filter_append, List.map_append]

theorem linesBesides_append (level : String) (first second : List LogEntry) :
    linesBesides level (first ++ second) = linesBesides level first ++ linesBesides level second := by
  unfold linesBesides
  rw [List.filter_append, List.map_append]

theorem linesBesides_report (reports : Bool) (cycles : UInt64) (address : UInt16) (word : Word) :
    linesBesides "DEBUG" (if reports then [.instruction cycles address word] else []) = [] := by
  cases reports <;> rfl

theorem linesAt_report (reports : Bool) (cycles : UInt64) (address : UInt16) (word : Word) :
    linesAt "DEBUG" (if reports then [.instruction cycles address word] else []) =
      if reports then [reportLine cycles address word] else [] := by
  cases reports <;> rfl

namespace Session

/-- What the operations of a session answered. -/
def results (session : Session) : List (Except Failure Answer) :=
  session.answers.map Prod.fst

/-- The lines that the operations of a session logged, apart from those at a level. -/
def linesBesides (level : String) (session : Session) : List (List String) :=
  session.answers.map fun answer => ChipEight.linesBesides level answer.2

end Session

namespace Machine

/-- Whether two machines agree in everything but their debugging. -/
def AgreesButDebugging (first second : Machine) : Prop :=
  first.adjust (.debugging false) = second.adjust (.debugging false)

/-- **What a machine reports of an operation.** If it counts the operation, that is a tick with a word
to fetch, which it reports if it is debugged. -/
inductive Reports (machine : Machine) (operation : Operation) : Prop
  | counted (word : Word) (isTick : operation = .tick)
      (read : machine.memory.word? machine.registers.pc.toNat = some word)
      (counts : (operation.perform machine).machine.control.cycles = machine.control.cycles + 1)
      (lines : linesAt "DEBUG" (operation.perform machine).log =
        if machine.control.settings.debug then
          [reportLine machine.control.cycles machine.registers.pc word] else [])
  | uncounted (same : (operation.perform machine).machine.control.cycles = machine.control.cycles)
      (lines : linesAt "DEBUG" (operation.perform machine).log = [])

/-- **What a machine logs of the next call**: the reports, and one warning for a word that a tick
refuses, with the address that it was fetched from. -/
structure LogsCalls (machine : Machine) : Prop where
  reports : ∀ operation : Operation, operation.isOngoingCall = true → machine.Reports operation
  warnings : ∀ word, machine.tick.answer = .error (.refused (.unknownWord word)) →
    machine.memory.word? machine.registers.pc.toNat = some word ∧
      linesAt "WARN" machine.tick.log = [warningLine machine.registers.pc word]

variable {machine first second : Machine} {operation : Operation} {word : Word}

/-! ### Two machines -/

/-- No word looks at the debugging. -/
theorem overlooks_debugging (word : Word) (registers : Registers) (debug : Bool) :
    word.Overlooks registers (.debugging debug) := by
  intro instruction reads
  cases instruction <;> trivial

theorem tick_debugging (machine : Machine) (debug : Bool) :
    (machine.adjust (.debugging debug)).tick.answer = machine.tick.answer ∧
      (machine.adjust (.debugging debug)).tick.machine =
        machine.tick.machine.adjust (.debugging debug) ∧
      linesBesides "DEBUG" (machine.adjust (.debugging debug)).tick.log =
        linesBesides "DEBUG" machine.tick.log := by
  have same := isWaiting_adjust machine (.debugging debug)
  cases machine.tickKind with
  | waits waiting =>
    rw [tick_waiting waiting, tick_waiting (same.trans waiting),
      pollKeys_adjust machine (.debugging debug) fun _ => nofun]
    exact ⟨rfl, rfl, rfl⟩
  | stuck running unfetched =>
    rw [tick_unfetched running unfetched,
      tick_unfetched (same.trans running) (unfetched_adjust (.debugging debug) unfetched)]
    exact ⟨rfl, rfl, rfl⟩
  | executes word fetched running found =>
    have adjusted := fetch?_adjust (.debugging debug) found
    rw [tick_answer running found, tick_machine running found, tick_log running found,
      tick_answer (same.trans running) adjusted, tick_machine (same.trans running) adjusted,
      tick_log (same.trans running) adjusted,
      execute_fetched_adjust found (overlooks_debugging word _ debug)]
    refine ⟨rfl, rfl, ?_⟩
    rw [linesBesides_append, linesBesides_append, linesBesides_report, linesBesides_report]
    rfl

/-- **A call of a host does the same with and without debugging**, apart from its reports. -/
theorem perform_debugging (machine : Machine) (debug : Bool) (call : operation.isOngoingCall = true) :
    (operation.perform (machine.adjust (.debugging debug))).answer =
        (operation.perform machine).answer ∧
      (operation.perform (machine.adjust (.debugging debug))).machine =
        (operation.perform machine).machine.adjust (.debugging debug) ∧
      linesBesides "DEBUG" (operation.perform (machine.adjust (.debugging debug))).log =
        linesBesides "DEBUG" (operation.perform machine).log := by
  by_cases isTick : operation = .tick
  · subst isTick
    obtain ⟨answer, left, lines⟩ := tick_debugging machine debug
    exact ⟨congrArg (Except.map _) answer, left, lines⟩
  · rw [hostCall_adjust machine (.debugging debug) (fun _ _ => nofun) (fun _ => nofun) call
      isTick]
    exact ⟨rfl, rfl, rfl⟩

/-- **So does a session.** -/
theorem performAll_debugging (machine : Machine) (debug : Bool) {operations : List Operation}
    (calls : ∀ operation ∈ operations, operation.isOngoingCall = true) :
    ((machine.adjust (.debugging debug)).performAll operations).results =
        (machine.performAll operations).results ∧
      ((machine.adjust (.debugging debug)).performAll operations).linesBesides "DEBUG" =
        (machine.performAll operations).linesBesides "DEBUG" ∧
      (machine.adjust (.debugging debug)).after operations =
        (machine.after operations).adjust (.debugging debug) := by
  induction operations generalizing machine with
  | nil => exact ⟨rfl, rfl, rfl⟩
  | cons operation rest ih =>
    obtain ⟨answer, left, lines⟩ :=
      perform_debugging machine debug (calls operation List.mem_cons_self)
    obtain ⟨results, linesAfter, after⟩ := ih (operation.perform machine).machine
      fun other member => calls other (List.mem_cons_of_mem _ member)
    rw [← left] at results linesAfter after
    refine ⟨?_, ?_, after⟩
    · exact List.cons_eq_cons.mpr ⟨answer, results⟩
    · exact List.cons_eq_cons.mpr ⟨lines, linesAfter⟩

/-! ### Reports -/

theorem linesAt_execute (machine : Machine) (word : Word) :
    linesAt "DEBUG" (machine.execute word).log = [] := by
  rcases (perform_effect word (machine.note word)).log with ⟨-, log⟩ | ⟨-, log | log⟩ <;>
    exact (congrArg (linesAt "DEBUG") log).trans rfl

theorem pollKeys_silent (machine : Machine) :
    machine.pollKeys.machine.control.cycles = machine.control.cycles ∧
      linesAt "DEBUG" machine.pollKeys.log = [] := by
  cases found : machine.registers.firstKey? with
  | none =>
    rw [pollKeys_none found]
    exact ⟨rfl, rfl⟩
  | some key =>
    rw [pollKeys_some found]
    exact ⟨rfl, rfl⟩

theorem reports_of_tick (machine : Machine) : machine.Reports .tick := by
  cases machine.tickKind with
  | waits waiting =>
    have ticked : Operation.perform machine .tick = (machine.pollKeys.map fun _ => ()).plain :=
      congrArg Outcome.plain (tick_waiting waiting)
    obtain ⟨same, lines⟩ := machine.pollKeys_silent
    refine .uncounted ?_ ?_
    · rw [ticked]
      exact same
    · rw [ticked]
      exact lines
  | stuck running unfetched =>
    have ticked : Operation.perform machine .tick = Outcome.plain (.outOfBounds machine) :=
      congrArg Outcome.plain (tick_unfetched running unfetched)
    refine .uncounted ?_ ?_
    · rw [ticked]
      rfl
    · rw [ticked]
      rfl
  | executes word fetched running found =>
    have counted : (fetched.execute word).machine.control.cycles = fetched.control.cycles + 1 :=
      (perform_effect word (fetched.note word)).cycles
    obtain ⟨read, rfl⟩ := fetch?_eq_some_iff.mp found
    refine .counted word rfl read ?_ ?_
    · show machine.tick.machine.control.cycles = _
      rw [tick_machine running found]
      exact counted
    · show linesAt "DEBUG" machine.tick.log = _
      rw [tick_log running found, linesAt_append, linesAt_execute, linesAt_report, List.append_nil]

/-- **A machine reports the calls that it counts**, which are ticks, and no others. -/
theorem reports_of_call (machine : Machine) (call : operation.isOngoingCall = true) :
    machine.Reports operation := by
  by_cases isTick : operation = .tick
  · subst isTick
    exact machine.reports_of_tick
  · obtain ⟨isHostCall, noReset⟩ := Operation.isHostCall_of_ongoing call
    obtain ⟨memory, registers, loaded, -, -, -, left⟩ :=
      machine.hostCall_machine isHostCall isTick noReset
    refine .uncounted ?_ ?_
    · rw [left]
    · rw [machine.hostCall_log isHostCall isTick]
      rfl

/-! ### Warnings -/

/-- **A tick that refuses a word warns of it once**, with the address that the word was fetched
from. -/
theorem unknown_warning (refused : machine.tick.answer = .error (.refused (.unknownWord word))) :
    machine.memory.word? machine.registers.pc.toNat = some word ∧
      linesAt "WARN" machine.tick.log = [warningLine machine.registers.pc word] := by
  cases machine.tickKind with
  | waits waiting =>
    rw [tick_waiting_answer waiting] at refused
    cases refused
  | stuck running unfetched =>
    rw [tick_unfetched running unfetched] at refused
    cases refused
  | executes executed fetched running found =>
    rw [tick_answer running found] at refused
    have behind : fetched.registers.pc = machine.registers.pc + 2 := by
      obtain ⟨-, rfl⟩ := fetch?_eq_some_iff.mp found
      rfl
    have reports := (perform_effect executed (fetched.note executed)).log
    rcases reports with ⟨answer, log⟩ | ⟨noRefusal, -⟩
    · obtain rfl : executed = word := by
        have same := answer.symm.trans refused
        cases same
        rfl
      refine ⟨(fetch?_eq_some_iff.mp found).1, ?_⟩
      have warned : (fetched.execute executed).log = [.unknownWord machine.registers.pc executed] := by
        refine log.trans ?_
        show [LogEntry.unknownWord (fetched.registers.pc - 2) executed] = _
        rw [behind, UInt16.add_sub_cancel]
      rw [tick_log running found, linesAt_append, warned]
      cases machine.control.settings.debug <;> rfl
    · exact absurd refused (noRefusal _)

/-! ### Sessions -/

theorem agreesButDebugging_iff :
    first.AgreesButDebugging second ↔
      second = first.adjust (.debugging second.control.settings.debug) := by
  constructor
  · intro agree
    exact congrArg (·.adjust (.debugging second.control.settings.debug)) agree.symm
  · intro same
    rw [same]
    rfl

theorem logsCalls (machine : Machine) : machine.LogsCalls :=
  ⟨fun _ => machine.reports_of_call, fun _ => unknown_warning⟩

/-- **Debugging only observes.** Two machines that agree in everything but their debugging answer alike
in every session of host calls without a reset, log the same lines but for the reports, and agree in
everything but their debugging afterwards. After every session, each of them reports the next call
exactly if it is debugged and counts the call, and then in one line with the count before it, the
counter and the word there; and if a tick refuses that word, one line warns of it. -/
theorem debugging_only_observes (agree : first.AgreesButDebugging second)
    {operations : List Operation}
    (calls : ∀ operation ∈ operations, operation.isOngoingCall = true) :
    (first.performAll operations).results = (second.performAll operations).results ∧
    (first.performAll operations).linesBesides "DEBUG" =
      (second.performAll operations).linesBesides "DEBUG" ∧
    (first.after operations).AgreesButDebugging (second.after operations) ∧
    (first.after operations).control.settings.debug = first.control.settings.debug ∧
    (second.after operations).control.settings.debug = second.control.settings.debug ∧
    (first.after operations).LogsCalls ∧ (second.after operations).LogsCalls := by
  obtain ⟨results, lines, after⟩ :=
    performAll_debugging first second.control.settings.debug calls
  rw [← agreesButDebugging_iff.mp agree] at results lines after
  refine ⟨results.symm, lines.symm, ?_, ?_, ?_, logsCalls _, logsCalls _⟩
  · rw [after]
    rfl
  · -- a machine agrees with itself, so this is the same fact about one run
    exact congrArg (·.control.settings.debug)
      (performAll_debugging first first.control.settings.debug calls).2.2
  · rw [after]
    rfl

/-- A machine that is debugged and one that is not meet the same unknown word. -/
theorem debugging_only_observes_unknown :
    let machine : Machine := { new (.ofSeed 0) with
      memory := ⟨#[0x60, 0x07, 0xff, 0xff]⟩
      screen := ⟨#[]⟩ }
    let debugged := machine.adjust (.debugging true)
    let operations : List Operation := [.tick, .press 3]
    debugged.AgreesButDebugging machine ∧
      (∀ operation ∈ operations, operation.isOngoingCall = true) ∧
      (debugged.after operations).tick.answer = .error (.refused (.unknownWord 0xffff)) ∧
      linesAt "WARN" (debugged.after operations).tick.log = [warningLine 2 0xffff] := by
  intro machine debugged operations
  have calls : ∀ operation ∈ operations, operation.isOngoingCall = true := by
    simp [operations, Operation.isOngoingCall, Operation.isHostCall]
  have refused : (debugged.after operations).tick.answer =
      .error (.refused (.unknownWord 0xffff)) := by decide
  have counter : (debugged.after operations).registers.pc = 2 := by decide
  have agree : debugged.AgreesButDebugging machine := rfl
  obtain ⟨-, -, -, -, -, logs, -⟩ := debugging_only_observes agree calls
  have warned := (logs.warnings _ refused).2
  rw [counter] at warned
  exact ⟨agree, calls, refused, warned⟩

end Machine

end ChipEight
