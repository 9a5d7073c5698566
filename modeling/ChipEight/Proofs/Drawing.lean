/-
**Drawing on a screen.**

Every pixel of a sprite lands on a screen of standard size, whichever way sprites run on at the
edges (`Sprite.target_lt`), so only memory can end a drawing early
(`Screen.flipAll_complete`). Drawing keeps the size of the screen (`Screen.size_flipAll`).

`Screen.flipAll_eq` is the law of drawing: up to the first target outside, each pixel is flipped as
often as it is a target (`Screen.flipped`), and a lit pixel goes dark exactly if a target was lit or
is one twice (`Screen.Collides`). It follows that the order of the targets does not matter
(`Screen.flipped_perm`, `Screen.collides_perm`) and that drawing the same twice changes no pixel
(`Screen.flipped_twice`).
-/

import Mathlib.Data.List.TakeWhile
import Mathlib.Tactic.Common
import ChipEight.Screen.Sprite

namespace ChipEight

/-! ### Targets -/

/-- **Every target is on a standard screen**, for all coordinates and both ways to run on. -/
theorem Sprite.target_lt (wrap : Bool) (column line : Nat) :
    Sprite.target wrap column line < Screen.standardSize := by
  cases wrap with
  | false => exact Nat.mod_lt _ (by decide)
  | true =>
    have inColumns : column % 64 < 64 := Nat.mod_lt _ (by decide)
    have inLines : line % 32 < 32 := Nat.mod_lt _ (by decide)
    show line % 32 * 64 + column % 64 < 2048
    omega

theorem Sprite.targets_lt (wrap : Bool) (column line : Nat) (rows : List UInt8) :
    ∀ index ∈ Sprite.targets wrap column line rows, index < Screen.standardSize := by
  induction rows generalizing line with
  | nil => simp [Sprite.targets]
  | cons row rest ih =>
    intro index member
    rw [Sprite.targets, List.mem_append] at member
    rcases member with inRow | inRest
    · obtain ⟨bit, -, rfl⟩ := List.mem_map.mp inRow
      exact Sprite.target_lt wrap (column + bit) line
    · exact ih (line + 1) index inRest

/-- A row without a set bit is zero. -/
theorem Sprite.setBits_eq_nil_iff (row : UInt8) : Sprite.setBits row = [] ↔ row = 0 := by
  constructor
  · intro none
    rw [← UInt8.toNat_inj]
    refine Nat.eq_of_testBit_eq fun place => ?_
    rw [UInt8.toNat_zero, Nat.zero_testBit]
    by_cases inByte : place < 8
    · have dark := List.filter_eq_nil_iff.mp none (7 - place) (List.mem_range.mpr (by omega))
      rwa [Sprite.isSet, Nat.sub_sub_self (by omega), Bool.not_eq_true] at dark
    · exact Nat.testBit_lt_two_pow
        (Nat.lt_of_lt_of_le row.toNat_lt (Nat.pow_le_pow_right (by decide) (by omega)))
  · rintro rfl
    decide

/-- A sprite has no target if none of its bits is set. -/
theorem Sprite.targets_eq_nil_iff (wrap : Bool) (column line : Nat) (rows : List UInt8) :
    Sprite.targets wrap column line rows = [] ↔ ∀ row ∈ rows, row = 0 := by
  induction rows generalizing line with
  | nil => simp [Sprite.targets]
  | cons row rest ih =>
    rw [Sprite.targets, List.append_eq_nil_iff, ih, Sprite.rowTargets, List.map_eq_nil_iff,
      Sprite.setBits_eq_nil_iff, List.forall_mem_cons]

namespace Screen

/-! ### Flipping -/

theorem toggle?_of_lt (screen : Screen) {index : Nat} (inside : index < screen.size) (value : Bool) :
    ∃ flipped wentDark, screen.toggle? index value = some (flipped, wentDark) ∧
      flipped.size = screen.size := by
  exact ⟨_, _, dif_pos inside, Array.size_set inside⟩

theorem toggle?_of_le (screen : Screen) {index : Nat} (outside : screen.size ≤ index)
    (value : Bool) : screen.toggle? index value = none :=
  dif_neg (Nat.not_lt.mpr outside)

theorem size_flipAll (screen : Screen) (indexes : List Nat) :
    (screen.flipAll indexes).screen.size = screen.size := by
  induction indexes generalizing screen with
  | nil => rfl
  | cons index rest ih =>
    rw [flipAll]
    rcases Nat.lt_or_ge index screen.size with inside | outside
    · obtain ⟨flipped, wentDark, toggled, sameSize⟩ := screen.toggle?_of_lt inside true
      rw [toggled]
      exact (ih flipped).trans sameSize
    · rw [screen.toggle?_of_le outside]

/-- A drawing whose targets are all on the screen is completed. -/
theorem flipAll_complete (screen : Screen) (indexes : List Nat)
    (inside : ∀ index ∈ indexes, index < screen.size) : (screen.flipAll indexes).complete = true := by
  induction indexes generalizing screen with
  | nil => rfl
  | cons index rest ih =>
    obtain ⟨flipped, wentDark, toggled, sameSize⟩ :=
      screen.toggle?_of_lt (inside index List.mem_cons_self) true
    rw [flipAll, toggled]
    refine ih flipped fun other member => ?_
    rw [sameSize]
    exact inside other (List.mem_cons_of_mem _ member)

theorem size_erase (screen : Screen) : screen.erase.size = screen.size := by
  simp only [erase, size, Array.size_replicate]

theorem pixel?_erase (screen : Screen) (index : Nat) :
    screen.erase.pixel? index = if index < screen.size then some false else none :=
  Array.getElem?_replicate

theorem size_of_setPixel? {screen written : Screen} {index : Nat} {value : Bool}
    (found : screen.setPixel? index value = some written) : written.size = screen.size := by
  unfold setPixel? at found
  split at found
  · rename_i inside
    cases found
    exact Array.size_set inside
  · cases found

theorem size_of_toggle? {screen flipped : Screen} {index : Nat} {value wentDark : Bool}
    (found : screen.toggle? index value = some (flipped, wentDark)) :
    flipped.size = screen.size := by
  rcases Nat.lt_or_ge index screen.size with inside | outside
  · obtain ⟨other, dark, toggled, same⟩ := screen.toggle?_of_lt inside value
    rw [toggled] at found
    cases found
    exact same
  · rw [screen.toggle?_of_le outside] at found
    cases found

/-! ### The law of drawing -/

/-- The screen with each pixel flipped as often as its index occurs. -/
def flipped (screen : Screen) (indexes : List Nat) : Screen :=
  ⟨screen.pixels.mapIdx fun index pixel => pixel ^^ decide (indexes.count index % 2 = 1)⟩

/-- Whether flipping one pixel after the other turns a lit one off at some time. -/
def Collides (screen : Screen) (indexes : List Nat) : Prop :=
  ∃ index ∈ indexes, screen.pixel? index = some true ∨ 2 ≤ indexes.count index

instance (screen : Screen) (indexes : List Nat) : Decidable (screen.Collides indexes) :=
  inferInstanceAs (Decidable (∃ index ∈ indexes, _))

/-- Two screens are equal if they have the same pixels. -/
theorem ext_pixel? {first second : Screen}
    (same : ∀ index, first.pixel? index = second.pixel? index) : first = second := by
  obtain ⟨pixels⟩ := first
  obtain ⟨others⟩ := second
  exact congrArg Screen.mk (Array.ext_getElem? same)

theorem pixel?_flipped (screen : Screen) (indexes : List Nat) (index : Nat) :
    (screen.flipped indexes).pixel? index =
      (screen.pixel? index).map fun pixel => pixel ^^ decide (indexes.count index % 2 = 1) :=
  Array.getElem?_mapIdx

theorem flipped_nil (screen : Screen) : screen.flipped [] = screen := by
  refine ext_pixel? fun index => ?_
  rw [pixel?_flipped]
  simp

/-- Flipping one pixel, and what becomes of all pixels. -/
theorem toggle?_inside (screen : Screen) {index : Nat} (inside : index < screen.size) :
    screen.toggle? index true =
      some (screen.flipped [index], decide (screen.pixel? index = some true)) := by
  have held : screen.pixel? index = some screen.pixels[index] := Array.getElem?_eq_getElem inside
  have flip : (⟨screen.pixels.set index (screen.pixels[index] ^^ true) inside⟩ : Screen) =
      screen.flipped [index] := by
    refine ext_pixel? fun place => ?_
    rw [pixel?_flipped]
    show (screen.pixels.set index _ inside)[place]? = _
    rw [Array.getElem?_set inside]
    by_cases same : index = place
    · subst same
      simp [held]
    · simp [same, pixel?]
  unfold size at inside
  rw [toggle?, dif_pos inside, held, ← flip]
  simp

theorem size_flipped (screen : Screen) (indexes : List Nat) :
    (screen.flipped indexes).size = screen.size := by
  simp [flipped, size]

/-- Flipping some pixels and then others flips all of them. -/
theorem flipped_flipped (screen : Screen) (first second : List Nat) :
    (screen.flipped first).flipped second = screen.flipped (first ++ second) := by
  refine ext_pixel? fun index => ?_
  rw [pixel?_flipped, pixel?_flipped, pixel?_flipped, Option.map_map, List.count_append]
  refine congrArg (Option.map · (screen.pixel? index)) (funext fun pixel => ?_)
  show ((pixel ^^ _) ^^ _) = _
  rw [Bool.xor_assoc]
  congr 1
  rcases Nat.mod_two_eq_zero_or_one (first.count index) with even | odd <;>
    rcases Nat.mod_two_eq_zero_or_one (second.count index) with even' | odd' <;>
    simp [Nat.add_mod, *]

/-- A collision comes with the first pixel or with one of the others. -/
theorem collides_cons_iff (screen : Screen) {index : Nat} (rest : List Nat)
    (inside : index < screen.size) :
    screen.Collides (index :: rest) ↔
      screen.pixel? index = some true ∨ (screen.flipped [index]).Collides rest := by
  have others : ∀ other ≠ index,
      (screen.flipped [index]).pixel? other = screen.pixel? other ∧
        (index :: rest).count other = rest.count other := by
    intro other different
    rw [pixel?_flipped, List.count_cons_of_ne different.symm, List.count_cons_of_ne different.symm]
    simp
  have itself : (index :: rest).count index = rest.count index + 1 := List.count_cons_self
  constructor
  · rintro ⟨other, member, lit⟩
    by_cases same : other = index
    · subst same
      rw [itself] at lit
      by_cases first : screen.pixel? other = some true
      · exact .inl first
      · -- the pixel is dark, so a second flip of it turns it off
        have again : 0 < rest.count other := by
          rcases lit with lit | twice
          · exact absurd lit first
          · omega
        refine .inr ⟨other, List.count_pos_iff.mp again, .inl ?_⟩
        obtain ⟨pixel, held⟩ : ∃ pixel, screen.pixel? other = some pixel :=
          ⟨_, Array.getElem?_eq_getElem inside⟩
        rw [held, Option.some.injEq, Bool.not_eq_true] at first
        rw [pixel?_flipped, held, first]
        simp
    · have inRest := (List.mem_cons.mp member).resolve_left same
      rw [(others other same).2] at lit
      rw [← (others other same).1] at lit
      exact .inr ⟨other, inRest, lit⟩
  · rintro (first | ⟨other, member, lit⟩)
    · exact ⟨index, List.mem_cons_self, .inl first⟩
    · refine ⟨other, List.mem_cons_of_mem _ member, ?_⟩
      by_cases same : other = index
      · subst same
        have again := List.count_pos_iff.mpr member
        exact .inr (by omega)
      · rwa [(others other same).1, ← (others other same).2] at lit

/-- **The law of drawing.** -/
theorem flipAll_eq (screen : Screen) (indexes : List Nat) :
    screen.flipAll indexes =
      ⟨screen.flipped (indexes.takeWhile (· < screen.size)),
        screen.Collides (indexes.takeWhile (· < screen.size)),
        indexes.takeWhile (· < screen.size) = indexes⟩ := by
  induction indexes generalizing screen with
  | nil =>
    simp [flipAll, flipped_nil, Collides]
  | cons index rest ih =>
    rw [flipAll]
    rcases Nat.lt_or_ge index screen.size with inside | outside
    · rw [screen.toggle?_inside inside, List.takeWhile_cons_of_pos (by simpa using inside)]
      simp only [ih, size_flipped, flipped_flipped, List.singleton_append,
        collides_cons_iff screen _ inside, Bool.decide_or, List.cons.injEq, true_and]
    · rw [screen.toggle?_of_le outside, List.takeWhile_cons_of_neg (by simpa using outside)]
      simp [flipped_nil, Collides]

/-- The law of drawing, if all targets are on the screen. -/
theorem flipAll_inside (screen : Screen) {indexes : List Nat}
    (inside : ∀ index ∈ indexes, index < screen.size) :
    screen.flipAll indexes = ⟨screen.flipped indexes, screen.Collides indexes, true⟩ := by
  have all : indexes.takeWhile (· < screen.size) = indexes :=
    List.takeWhile_eq_self_iff.mpr fun index member => by simpa using inside index member
  rw [flipAll_eq, all, decide_eq_true rfl]

/-! ### Orders and repetitions -/

section Rearranged

variable (screen : Screen) {first second : List Nat}

/-- **The order of the targets does not matter.** -/
theorem flipped_perm (perm : first.Perm second) : screen.flipped first = screen.flipped second := by
  unfold flipped
  simp only [perm.count_eq]

theorem collides_perm (perm : first.Perm second) :
    screen.Collides first ↔ screen.Collides second := by
  unfold Collides
  simp only [perm.count_eq, perm.mem_iff]

/-- A collision in two drawings, one after the other, is one in the first or in the second. -/
theorem collides_append_iff (inside : ∀ index ∈ first, index < screen.size) :
    screen.Collides (first ++ second) ↔
      screen.Collides first ∨ (screen.flipped first).Collides second := by
  induction first generalizing screen with
  | nil => simp [flipped_nil, Collides]
  | cons index rest ih =>
    have here := inside index List.mem_cons_self
    have behind : ∀ other ∈ rest, other < (screen.flipped [index]).size := by
      intro other member
      rw [size_flipped]
      exact inside other (List.mem_cons_of_mem _ member)
    rw [List.cons_append, collides_cons_iff screen _ here, collides_cons_iff screen _ here,
      ih _ behind, flipped_flipped, List.singleton_append, or_assoc]

/-- **Drawing the same twice changes no pixel.** -/
theorem flipped_twice (indexes : List Nat) : screen.flipped (indexes ++ indexes) = screen := by
  refine ext_pixel? fun index => ?_
  have even : ¬ (indexes.count index + indexes.count index) % 2 = 1 := by omega
  rw [pixel?_flipped, List.count_append, decide_eq_false even]
  simp

/-- Drawing the same twice turns off what it turned on, if it draws anything. -/
theorem collides_twice (indexes : List Nat) :
    screen.Collides (indexes ++ indexes) ↔ indexes ≠ [] := by
  constructor
  · rintro ⟨index, member, -⟩ empty
    rw [empty] at member
    cases member
  · intro drawn
    obtain ⟨index, member⟩ := List.exists_mem_of_ne_nil indexes drawn
    have once := List.count_pos_iff.mpr member
    refine ⟨index, List.mem_append_left _ member, .inr ?_⟩
    rw [List.count_append]
    omega

end Rearranged

end Screen

end ChipEight
