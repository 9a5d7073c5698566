/-
**Resets that draw random bytes of their own.**

A reset takes its random bytes from a source that nobody chooses. So two machines that go through one
session may come out of its resets with different sources, even if they were reseeded alike before. They
stay together as long as nothing shows of the bytes by which they differ:

* `Machine.SameButDrawn`: the pairs of sessions that are meant here;
* `Machine.Shares`, with `Shares.perform` and `Shares.reset`: what the machines share, and that an
  operation of both keeps it;
* `Shares.performAll`: so the sessions answer and report the same, and leave the same image.
-/

import ChipEight.Proofs.Session.EqualImages

namespace ChipEight

namespace Operation

/-- Whether an operation shows nothing of where random bytes come from: it is no request of the host
for some, and a word of family twelve that it executes has a mask of zero. -/
def HidesRandom (machine : Machine) (operation : Operation) : Prop :=
  (∀ count, operation ≠ .random count) ∧
    ∀ word ∈ operation.executedWord machine, word.family = 0xc → word.immediate = 0

theorem hidesRandom_reseed (machine : Machine) (seed : UInt64) :
    (reseed seed).HidesRandom machine :=
  ⟨nofun, nofun⟩

theorem hidesRandom_execute (machine : Machine) {word : Word} (zero : word.immediate = 0) :
    (execute word).HidesRandom machine := by
  refine ⟨nofun, fun other executed _ => ?_⟩
  obtain rfl := List.mem_singleton.mp executed
  exact zero

/-- Whether two operations are the same reset, apart from the sources that they bring. -/
inductive SameReset : Operation → Operation → Prop
  | reset (first second : RandomSource) : SameReset (.reset first) (.reset second)
  | resetRegisters (first second : RandomSource) :
      SameReset (.resetRegisters first) (.resetRegisters second)

end Operation

namespace Machine

/-- **Two sessions that are the same but for what their resets draw**, of which nothing shows. That the
source is `shared` means that both machines have the same one; while they have not, the operations show
nothing of it. A reset ends this sharing, and an operation that brings the same source to both machines
begins it again. -/
inductive SameButDrawn : Machine → Bool → List Operation → List Operation → Prop
  | nil {machine : Machine} {shared : Bool} : SameButDrawn machine shared [] []
  | cons {machine : Machine} {shared : Bool} {operation : Operation}
      {operations others : List Operation}
      (hides : shared = false → operation.HidesRandom machine)
      (rest : SameButDrawn (operation.perform machine).machine
        (shared || operation.source?.isSome) operations others) :
      SameButDrawn machine shared (operation :: operations) (operation :: others)
  | reset {machine : Machine} {shared : Bool} {operation other : Operation}
      {operations others : List Operation} (same : operation.SameReset other)
      (rest : SameButDrawn (operation.perform machine).machine false operations others) :
      SameButDrawn machine shared (operation :: operations) (other :: others)

/-- **What the machines of two such sessions share**: the image, and the source if it is shared. -/
structure Shares (shared : Bool) (first second : Machine) : Prop where
  image : first.toImage = second.toImage
  source : shared = true → first.source = second.source

namespace Shares

variable {first second : Machine} {shared : Bool} {operation other : Operation}
  {operations others : List Operation}

theorem of_image (same : first.toImage = second.toImage) : Shares false first second :=
  ⟨same, nofun⟩

theorem eq (shares : Shares true first second) : first = second := by
  obtain ⟨image, source⟩ := first
  obtain ⟨otherImage, otherSource⟩ := second
  cases shares.image
  cases shares.source rfl
  rfl

/-- **One operation on both machines.** -/
theorem perform (shares : Shares shared first second)
    (hides : shared = false → operation.HidesRandom first) :
    operation.AnswersAlike first second ∧
      Shares (shared || operation.source?.isSome) (operation.perform first).machine
        (operation.perform second).machine := by
  cases shared with
  | true =>
    obtain rfl := shares.eq
    exact ⟨⟨rfl, rfl⟩, rfl, fun _ => rfl⟩
  | false =>
    obtain ⟨noRandom, zero⟩ := hides rfl
    obtain ⟨alike, images⟩ := perform_sameImage shares.image noRandom zero
    refine ⟨alike, images, fun brings => ?_⟩
    rw [perform_sameImage_of_source shares.image (Option.isSome_iff_ne_none.mp brings)]

/-- **A reset of both machines**, each with a source of its own. -/
theorem reset (shares : Shares shared first second) (same : operation.SameReset other) :
    (operation.perform first).answer = (other.perform second).answer ∧
      (operation.perform first).log = (other.perform second).log ∧
      Shares false (operation.perform first).machine (other.perform second).machine := by
  obtain ⟨image, source⟩ := first
  obtain ⟨otherImage, otherSource⟩ := second
  cases shares.image
  cases same <;> exact ⟨rfl, rfl, .of_image rfl⟩

/-- **Sessions that are the same but for what their resets draw** answer and report the same, and leave
the same image. -/
theorem performAll (shares : Shares shared first second)
    (same : first.SameButDrawn shared operations others) :
    (first.performAll operations).answers = (second.performAll others).answers ∧
      (first.after operations).toImage = (second.after others).toImage := by
  induction same generalizing second with
  | nil => exact ⟨rfl, shares.image⟩
  | cons hides _ ih =>
    obtain ⟨⟨answer, log⟩, next⟩ := shares.perform hides
    obtain ⟨answers, images⟩ := ih next
    exact ⟨List.cons_eq_cons.mpr ⟨Prod.ext answer log, answers⟩, images⟩
  | reset same _ ih =>
    obtain ⟨answer, log, next⟩ := shares.reset same
    obtain ⟨answers, images⟩ := ih next
    exact ⟨List.cons_eq_cons.mpr ⟨Prod.ext answer log, answers⟩, images⟩

end Shares

end Machine

end ChipEight
