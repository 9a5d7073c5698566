/-
**Loading regions.**

What becomes of a load depends on two sizes only, that of memory and that of the payload
(`Region.verdict`), and a load that succeeds lays its payload over the start of its region
(`Memory.loaded`). No payload reaches the end of its region, so no load reaches another one:

* `loadRegion_eq`, `performAll_loads`: one load, and several of them;
* `Memory.byte?_loaded`: every byte after a load that succeeds;
* `loadRegion_commutes`: loads of different regions may change places;
* `Memory.AgreesOutside`: what two memories share that differ in one place. Loads keep it, and one
  that covers the place leaves no difference (`AgreesOutside.loaded_eq`), so a load that is covered
  leaves no trace (`performAll_loads_covered`);
* `regions_load_apart`: all of this.
-/

import ChipEight.Proofs.Loading
import ChipEight.Proofs.Session.Independence

namespace ChipEight

namespace Region

/-- **What becomes of a load**, by the number of bytes in memory and in the payload. -/
def verdict (region : Region) (size length : Nat) : Except Failure Unit :=
  if region.capacity ≤ length then
    .error (.refused (.payloadTooLong region length region.capacity))
  else if size < region.start + length then .error .outOfBounds
  else .ok ()

variable {region other : Region}

/-- A load succeeds if the payload is shorter than the region and memory has room for it. -/
theorem verdict_eq_ok_iff (size length : Nat) :
    region.verdict size length = .ok () ↔
      length < region.capacity ∧ region.start + length ≤ size := by
  unfold verdict
  split
  · exact iff_of_false nofun (by omega)
  · split
    · exact iff_of_false nofun (by omega)
    · exact iff_of_true rfl (by omega)

theorem verdict_eq_refused_iff (size length : Nat) :
    region.verdict size length =
        .error (.refused (.payloadTooLong region length region.capacity)) ↔
      region.capacity ≤ length := by
  unfold verdict
  split
  · exact iff_of_true rfl ‹_›
  · split
    · exact iff_of_false nofun ‹_›
    · exact iff_of_false nofun ‹_›

theorem verdict_eq_outOfBounds_iff (size length : Nat) :
    region.verdict size length = .error .outOfBounds ↔
      length < region.capacity ∧ size < region.start + length := by
  unfold verdict
  split
  · exact iff_of_false nofun (by omega)
  · split
    · exact iff_of_true rfl (by omega)
    · exact iff_of_false nofun (by omega)

theorem start_add_capacity (region : Region) : region.start + region.capacity = region.stop := by
  cases region <;> rfl

/-- **Two regions lie one behind the other.** -/
theorem stop_le_start_or (different : region ≠ other) :
    region.stop ≤ other.start ∨ other.stop ≤ region.start := by
  cases region <;> cases other
  · exact absurd rfl different
  · exact .inl (Nat.le_refl _)
  · exact .inr (Nat.le_refl _)
  · exact absurd rfl different

end Region

namespace Memory

variable (memory : Memory) {region other : Region} {payload data : Array UInt8}

/-! ### Memory after a load -/

/-- **Bytes in different places** may be laid over memory in either order. -/
theorem overlay_comm {start other : Nat} {values others : List UInt8}
    (apart : start + values.length ≤ other ∨ other + others.length ≤ start) :
    (memory.overlay start values).overlay other others =
      (memory.overlay other others).overlay start values := by
  refine ext_byte? fun address => ?_
  by_cases inside : start ≤ address ∧ address < start + values.length
  · have outside : address < other ∨ other + others.length ≤ address := by omega
    rw [byte?_overlay_outside _ _ outside, byte?_overlay, byte?_overlay,
      byte?_overlay_outside _ _ outside]
  · have outside : address < start ∨ start + values.length ≤ address := by omega
    rw [byte?_overlay_outside (memory.overlay other others) _ outside, byte?_overlay,
      byte?_overlay_outside _ _ outside, byte?_overlay]

/-- Memory after a load, whatever became of it. -/
def loaded (region : Region) (payload : Array UInt8) : Memory :=
  if payload.size < region.capacity ∧ region.start + payload.size ≤ memory.size then
    memory.overlay region.start payload.toList
  else memory

/-- A load that fails leaves memory as it is. -/
theorem loaded_eq_self {memory : Memory}
    (failed : region.verdict memory.size payload.size ≠ .ok ()) :
    memory.loaded region payload = memory :=
  if_neg fun both => failed ((Region.verdict_eq_ok_iff _ _).mpr both)

/-- Memory after several loads. -/
def loadedAll (memory : Memory) : List (Region × Array UInt8) → Memory
  | [] => memory
  | (region, payload) :: rest => (memory.loaded region payload).loadedAll rest

theorem size_loaded (region : Region) (payload : Array UInt8) :
    (memory.loaded region payload).size = memory.size := by
  unfold loaded
  split
  · exact memory.size_overlay _ _
  · rfl

theorem size_loadedAll (loads : List (Region × Array UInt8)) :
    (memory.loadedAll loads).size = memory.size := by
  induction loads generalizing memory with
  | nil => rfl
  | cons load rest ih => exact (ih _).trans (memory.size_loaded load.1 load.2)

theorem loadedAll_append (first second : List (Region × Array UInt8)) :
    memory.loadedAll (first ++ second) = (memory.loadedAll first).loadedAll second := by
  induction first generalizing memory with
  | nil => rfl
  | cons load rest ih => exact ih _

/-- **The bytes after a load** that succeeds are those of the payload, and the old ones around it. -/
theorem byte?_loaded (fits : payload.size < region.capacity)
    (room : region.start + payload.size ≤ memory.size) (address : Nat) :
    (memory.loaded region payload).byte? address =
      if region.start ≤ address ∧ address < region.start + payload.size then
        payload[address - region.start]?
      else memory.byte? address := by
  rw [loaded, if_pos ⟨fits, room⟩]
  split
  · rename_i inside
    obtain ⟨place, rfl⟩ := Nat.exists_eq_add_of_le inside.1
    rw [byte?_overlay_inside _ _ (by simp; omega) (by omega), Nat.add_sub_cancel_left,
      Array.getElem?_toList]
  · rename_i outside
    exact byte?_overlay_outside _ _ (by simp; omega)

/-- **Loads of different regions** leave the same memory in either order. -/
theorem loaded_comm (different : region ≠ other) :
    (memory.loaded region payload).loaded other data =
      (memory.loaded other data).loaded region payload := by
  have stop := region.start_add_capacity
  have otherStop := other.start_add_capacity
  have order := Region.stop_le_start_or different
  unfold loaded
  by_cases first : payload.size < region.capacity ∧ region.start + payload.size ≤ memory.size
  · by_cases second : data.size < other.capacity ∧ other.start + data.size ≤ memory.size
    · simp only [if_pos first, if_pos second, size_overlay]
      exact memory.overlay_comm (by simp; omega)
    · simp only [if_pos first, if_neg second, size_overlay]
  · by_cases second : data.size < other.capacity ∧ other.start + data.size ≤ memory.size
    · simp only [if_neg first, if_pos second, size_overlay]
    · simp only [if_neg first, if_neg second]

/-! ### Covered places -/

/-- **Whether two memories agree outside of a place**, a number of bytes from an address on. -/
structure AgreesOutside (first second : Memory) (start count : Nat) : Prop where
  size : first.size = second.size
  byte : ∀ address, address < start ∨ start + count ≤ address →
    first.byte? address = second.byte? address

/-- A load changes no more than the place of its payload. -/
theorem loaded_agreesOutside (region : Region) (payload : Array UInt8) :
    (memory.loaded region payload).AgreesOutside memory region.start payload.size := by
  refine ⟨memory.size_loaded region payload, fun address outside => ?_⟩
  unfold loaded
  split
  · exact byte?_overlay_outside _ _ (by simpa)
  · rfl

namespace AgreesOutside

variable {first second : Memory} {start count : Nat}

/-- Whatever is loaded into both memories, they go on to agree. -/
theorem loaded (agree : first.AgreesOutside second start count) (region : Region)
    (payload : Array UInt8) :
    (first.loaded region payload).AgreesOutside (second.loaded region payload) start count := by
  refine ⟨?_, fun address outside => ?_⟩
  · rw [size_loaded, size_loaded, agree.size]
  · unfold Memory.loaded
    rw [agree.size]
    split
    · rw [byte?_overlay, byte?_overlay, agree.byte address outside]
    · exact agree.byte address outside

theorem loadedAll (agree : first.AgreesOutside second start count)
    (loads : List (Region × Array UInt8)) :
    (first.loadedAll loads).AgreesOutside (second.loadedAll loads) start count := by
  induction loads generalizing first second with
  | nil => exact agree
  | cons load rest ih => exact ih (agree.loaded load.1 load.2)

/-- **A load that covers the place in which two memories differ** makes them the same. -/
theorem loaded_eq (agree : first.AgreesOutside second region.start count)
    (covers : count ≤ payload.size) (fits : payload.size < region.capacity)
    (room : region.start + payload.size ≤ second.size) :
    first.loaded region payload = second.loaded region payload := by
  refine ext_byte? fun address => ?_
  rw [byte?_loaded _ fits (agree.size ▸ room), byte?_loaded _ fits room]
  split
  · rfl
  · exact agree.byte address (by omega)

end AgreesOutside

end Memory

/-- Loads payloads into regions, one after the other. -/
def Operation.loads (loads : List (Region × Array UInt8)) : List Operation :=
  loads.map fun load => .loadRegion load.1 load.2

namespace Machine

variable (machine : Machine)

/-! ### Loads of a machine -/

/-- **A load**, whatever becomes of it. -/
theorem loadRegion_eq (region : Region) (payload : Array UInt8) :
    machine.loadRegion region payload =
      ⟨region.verdict machine.memory.size payload.size,
        { machine with memory := machine.memory.loaded region payload }, []⟩ := by
  rcases Nat.lt_or_ge payload.size region.capacity with fits | long
  · rcases Nat.lt_or_ge machine.memory.size (region.start + payload.size) with short | room
    · have verdict := (Region.verdict_eq_outOfBounds_iff _ _).mpr ⟨fits, short⟩
      rw [Memory.loaded_eq_self (by rw [verdict]; nofun), verdict, loadRegion,
        Memory.load_of_short fits short]
    · have left : machine.memory.loaded region payload = _ := if_pos ⟨fits, room⟩
      rw [(Region.verdict_eq_ok_iff _ _).mpr ⟨fits, room⟩, left, loadRegion,
        Memory.load_of_room fits room]
      rfl
  · have verdict := (Region.verdict_eq_refused_iff machine.memory.size _).mpr long
    rw [Memory.loaded_eq_self (by rw [verdict]; nofun), verdict, loadRegion,
      Memory.load_of_long long]

/-- **Several loads**: what becomes of each depends on the sizes only. -/
theorem performAll_loads (loads : List (Region × Array UInt8)) :
    machine.performAll (Operation.loads loads) =
      ⟨loads.map fun load =>
          ((load.1.verdict machine.memory.size load.2.size).map fun _ => .done, []),
        { machine with memory := machine.memory.loadedAll loads }⟩ := by
  induction loads generalizing machine with
  | nil => rfl
  | cons load rest ih =>
    have first : Operation.perform machine (.loadRegion load.1 load.2) = _ :=
      congrArg Outcome.plain (machine.loadRegion_eq load.1 load.2)
    have behind := ih { machine with memory := machine.memory.loaded load.1 load.2 }
    simp only [Memory.size_loaded] at behind
    simp only [Operation.loads, List.map_cons, performAll, first]
    exact congrArg (fun session => Session.mk (_ :: session.answers) session.machine) behind

theorem after_loads (loads : List (Region × Array UInt8)) :
    machine.after (Operation.loads loads) =
      { machine with memory := machine.memory.loadedAll loads } :=
  congrArg Session.machine (machine.performAll_loads loads)

/-- **Loads of different regions may change places.** -/
theorem loadRegion_commutes {region other : Region} (different : region ≠ other)
    (payload data : Array UInt8) :
    machine.CommutesAt (.loadRegion region payload) (.loadRegion other data) := by
  have first := machine.performAll_loads [(region, payload), (other, data)]
  have second := machine.performAll_loads [(other, data), (region, payload)]
  constructor
  · exact (congrArg Session.answers first).trans
      (congrArg (fun session => session.answers.reverse) second).symm
  · refine (congrArg Session.machine first).trans
      (Eq.trans ?_ (congrArg Session.machine second).symm)
    exact congrArg (fun memory => { machine with memory })
      (machine.memory.loaded_comm different)

/-- **A load leaves no trace** once a payload of at least its length is loaded into the same region,
whatever is loaded between the two. -/
theorem performAll_loads_covered (region : Region) (payload again : Array UInt8)
    (others : List (Region × Array UInt8)) (covers : payload.size ≤ again.size)
    (succeeded : ((machine.after (.loadRegion region payload :: Operation.loads others)).loadRegion
      region again).answer = .ok ()) :
    let behind := Operation.loads (others ++ [(region, again)])
    (machine.performAll (.loadRegion region payload :: behind)).answers.tail =
        (machine.performAll behind).answers ∧
      machine.after (.loadRegion region payload :: behind) = machine.after behind := by
  have state := machine.after_loads ((region, payload) :: others)
  have long := machine.performAll_loads ((region, payload) :: others ++ [(region, again)])
  have short := machine.performAll_loads (others ++ [(region, again)])
  change machine.after (.loadRegion region payload :: Operation.loads others) = _ at state
  rw [state, loadRegion_eq, Memory.size_loadedAll, Region.verdict_eq_ok_iff] at succeeded
  have agree := (machine.memory.loaded_agreesOutside region payload).loadedAll others
  have room := succeeded.2
  rw [← machine.memory.size_loadedAll others] at room
  have covered := agree.loaded_eq covers succeeded.1 room
  intro behind
  constructor
  · exact (congrArg (fun session => session.answers.tail) long).trans
      (congrArg Session.answers short).symm
  · refine (congrArg Session.machine long).trans
      (Eq.trans ?_ (congrArg Session.machine short).symm)
    refine congrArg (fun memory => { machine with memory }) ?_
    rw [Memory.loadedAll_append, Memory.loadedAll_append]
    exact covered

/-- **Loads keep to their region.** A load is refused if its payload leaves no byte of the region free,
and goes out of bounds if memory is too short for it; then nothing has changed. Otherwise the payload
stands at the start of the region, and every other byte is as before, the last one of the region and
those of the other region among them. So a font and a program may be loaded in either order, and an
earlier load does not matter once a payload of at least its length is loaded into the same region,
whatever is loaded between the two. -/
theorem regions_load_apart (machine : Machine) (region : Region) (payload : Array UInt8) :
    let outcome := machine.loadRegion region payload
    let after := outcome.machine
    (Region.capacity .charset = 512 ∧ Region.capacity .program = 3584) ∧
    (outcome.answer = .error (.refused (.payloadTooLong region payload.size region.capacity)) ↔
      region.capacity ≤ payload.size) ∧
    (outcome.answer = .error .outOfBounds ↔
      payload.size < region.capacity ∧ machine.memory.size < region.start + payload.size) ∧
    (outcome.answer ≠ .ok () → after = machine) ∧
    (payload.size < region.capacity → region.start + payload.size ≤ machine.memory.size →
      outcome.answer = .ok () ∧
      after = { machine with memory := after.memory } ∧
      (∀ address, after.memory.byte? address =
        if region.start ≤ address ∧ address < region.start + payload.size then
          payload[address - region.start]?
        else machine.memory.byte? address) ∧
      after.memory.byte? (region.stop - 1) = machine.memory.byte? (region.stop - 1) ∧
      ∀ other ≠ region, ∀ address, other.start ≤ address → address < other.stop →
        after.memory.byte? address = machine.memory.byte? address) ∧
    (∀ font program, machine.CommutesAt (.loadRegion .charset font) (.loadRegion .program program)) ∧
    ∀ (others : List (Region × Array UInt8)) (again : Array UInt8),
      payload.size ≤ again.size →
      ((machine.after (.loadRegion region payload :: Operation.loads others)).loadRegion region
        again).answer = .ok () →
      let behind := Operation.loads (others ++ [(region, again)])
      (machine.performAll (.loadRegion region payload :: behind)).answers.tail =
          (machine.performAll behind).answers ∧
        machine.after (.loadRegion region payload :: behind) = machine.after behind := by
  intro outcome after
  have ended : outcome = _ := machine.loadRegion_eq region payload
  have answer : outcome.answer = region.verdict machine.memory.size payload.size := by rw [ended]
  have left : after = { machine with memory := machine.memory.loaded region payload } := by
    show outcome.machine = _
    rw [ended]
  rw [answer]
  refine ⟨⟨rfl, rfl⟩, Region.verdict_eq_refused_iff _ _, Region.verdict_eq_outOfBounds_iff _ _,
    fun failed => ?_, fun fits room => ?_,
    fun font program => machine.loadRegion_commutes (by decide) font program,
    fun others again => machine.performAll_loads_covered region payload again others⟩
  · rw [left, Memory.loaded_eq_self failed]
  · have bytes := machine.memory.byte?_loaded fits room
    have stop := region.start_add_capacity
    rw [left]
    refine ⟨(Region.verdict_eq_ok_iff _ _).mpr ⟨fits, room⟩, rfl, bytes, ?_, ?_⟩
    · exact (bytes _).trans (if_neg (by omega))
    · intro other different address above below
      have order := Region.stop_le_start_or different
      exact (bytes address).trans (if_neg (by omega))

/-- A program that ends where memory does and one that ends behind it, and a font that a longer one
covers, with a program loaded between the two. -/
theorem regions_load_apart_covered :
    let machine : Machine := { new (.ofSeed 0) with memory := ⟨Array.replicate 514 7⟩ }
    let behind := Operation.loads [(.program, #[3, 4]), (.charset, #[5, 6])]
    (machine.loadRegion .program #[1, 2]).answer = .ok () ∧
      (machine.loadRegion .program #[1, 2]).machine.memory.byte? 511 = some 7 ∧
      (machine.loadRegion .program #[1, 2, 3]).machine = machine ∧
      machine.after (.loadRegion .charset #[1] :: behind) = machine.after behind := by
  intro machine behind
  have size : machine.memory.size = 514 := Array.size_replicate
  have last : machine.memory.byte? 511 = some 7 := Array.getElem?_replicate
  clear_value machine
  obtain ⟨-, -, -, -, loads, -⟩ := regions_load_apart machine .program #[1, 2]
  obtain ⟨-, -, faults, nothing, -⟩ := regions_load_apart machine .program #[1, 2, 3]
  obtain ⟨-, -, -, -, -, -, covered⟩ := regions_load_apart machine .charset #[1]
  obtain ⟨answer, -, -, -, others⟩ := loads (by decide) (by rw [size]; decide)
  refine ⟨answer, ?_, nothing ?_, ?_⟩
  · exact (others .charset (by decide) 511 (by decide) (by decide)).trans last
  · rw [faults.mpr ⟨by decide, by rw [size]; decide⟩]
    nofun
  · refine (covered [(.program, #[3, 4])] #[5, 6] (by decide) ?_).2
    have earlier : .loadRegion .charset #[1] :: Operation.loads [(.program, #[3, 4])] =
      Operation.loads [(.charset, #[1]), (.program, #[3, 4])] := rfl
    rw [earlier, after_loads, loadRegion_eq, Region.verdict_eq_ok_iff, Memory.size_loadedAll, size]
    decide

end Machine

end ChipEight
