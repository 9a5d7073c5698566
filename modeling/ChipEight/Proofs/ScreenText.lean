/-
**The screen read back from its text.**

A character of the text stands for an upper and a lower pixel (`Screen.upper_block`,
`Screen.lower_block`), and a line of it for a pair of lines of the screen. Going from pair to pair:

* `Screen.lines_textLines`: the lines of the text, and `Screen.readLine_textLine` what they show;
* `Screen.readText_textLines`: all pixels of full pairs are read back from the text;
* `Screen.litIn_textLines`: lit pixels, counted by characters;
* `Screen.text_keeps_pixels`: all of this together.
-/

import Mathlib.Tactic.Common
import ChipEight.Proofs.Text
import ChipEight.Machine.Summary

namespace ChipEight.Screen

/-! ### Reading a text -/

/-- Whether a character shows a lit upper pixel. -/
def upper (character : Char) : Bool :=
  character = '█' || character = '▀'

/-- Whether a character shows a lit lower pixel. -/
def lower (character : Char) : Bool :=
  character = '█' || character = '▄'

/-- The pixels that a line of text shows: its upper line and then its lower one. -/
def readLine (line : List Char) : List Bool :=
  line.map upper ++ line.map lower

/-- **The pixels that a text shows.** -/
def readText (text : List Char) : List Bool :=
  (Text.lines text).flatMap readLine

/-- How many lit pixels a text shows: two for a full block, one for half a block. -/
def litIn (text : List Char) : Nat :=
  2 * text.count '█' + text.count '▀' + text.count '▄'

/-! ### Characters -/

theorem upper_block (first second : Bool) : upper (block first second) = first := by
  cases first <;> cases second <;> rfl

theorem lower_block (first second : Bool) : lower (block first second) = second := by
  cases first <;> cases second <;> rfl

/-- **A character determines both of its pixels.** -/
theorem block_inj {first second otherFirst otherSecond : Bool} :
    block first second = block otherFirst otherSecond ↔
      first = otherFirst ∧ second = otherSecond := by
  constructor
  · intro same
    have uppers := congrArg upper same
    have lowers := congrArg lower same
    rw [upper_block, upper_block] at uppers
    rw [lower_block, lower_block] at lowers
    exact ⟨uppers, lowers⟩
  · rintro ⟨rfl, rfl⟩
    rfl

theorem block_mem (first second : Bool) : block first second ∈ ['█', '▀', '▄', ' '] := by
  cases first <;> cases second <;> decide

theorem litIn_append (first second : List Char) :
    litIn (first ++ second) = litIn first + litIn second := by
  simp only [litIn, List.count_append]
  omega

theorem litIn_block (first second : Bool) :
    litIn [block first second] = [first].count true + [second].count true := by
  cases first <;> cases second <;> rfl

/-! ### Rows of characters -/

section Rows

variable {uppers lowers : List Bool}

theorem map_upper_zipWith (same : uppers.length = lowers.length) :
    (List.zipWith block uppers lowers).map upper = uppers := by
  have above : upper ∘ Function.uncurry block = Prod.fst := funext fun _ => upper_block _ _
  rw [← List.map_uncurry_zip_eq_zipWith, List.map_map, above, List.map_fst_zip (Nat.le_of_eq same)]

theorem map_lower_zipWith (same : uppers.length = lowers.length) :
    (List.zipWith block uppers lowers).map lower = lowers := by
  have below : lower ∘ Function.uncurry block = Prod.snd := funext fun _ => lower_block _ _
  rw [← List.map_uncurry_zip_eq_zipWith, List.map_map, below, List.map_snd_zip (Nat.le_of_eq same.symm)]

/-- The characters of two rows show as many lit pixels as the rows have. -/
theorem litIn_zipWith (same : uppers.length = lowers.length) :
    litIn (List.zipWith block uppers lowers) = uppers.count true + lowers.count true := by
  induction uppers generalizing lowers with
  | nil =>
    rw [List.length_eq_zero_iff.mp same.symm]
    rfl
  | cons first others ih =>
    obtain _ | ⟨second, rest⟩ := lowers
    · cases same
    · have here := litIn_block first second
      have behind := ih (Nat.succ.inj same)
      have above : ([first] ++ others).count true = [first].count true + others.count true :=
        List.count_append
      have below : ([second] ++ rest).count true = [second].count true + rest.count true :=
        List.count_append
      have characters : litIn (block first second :: List.zipWith block others rest) = _ :=
        litIn_append [block first second] (List.zipWith block others rest)
      rw [List.singleton_append] at above below
      rw [List.zipWith_cons_cons]
      omega

end Rows

/-! ### Lines -/

section Lines

variable {pixels : List Bool}

theorem halves (full : pixels.length = 128) :
    (pixels.take width).length = 64 ∧ (pixels.drop width).length = 64 := by
  rw [List.length_take, List.length_drop, full]
  exact ⟨rfl, rfl⟩

theorem length_textLine (full : pixels.length = 128) : (textLine pixels).length = 64 := by
  obtain ⟨above, below⟩ := halves full
  rw [textLine, List.length_zipWith, above, below, Nat.min_self]

theorem mem_textLine {character : Char} (member : character ∈ textLine pixels) :
    character ∈ ['█', '▀', '▄', ' '] := by
  rw [textLine, ← List.map_uncurry_zip_eq_zipWith] at member
  obtain ⟨pair, -, rfl⟩ := List.mem_map.mp member
  exact block_mem pair.1 pair.2

theorem solid_textLine (pixels : List Bool) : '\n' ∉ textLine pixels := by
  intro member
  have noBreak : '\n' ∉ ['█', '▀', '▄', ' '] := by decide
  exact noBreak (mem_textLine member)

/-- **A line of text shows its pair of lines.** -/
theorem readLine_textLine (full : pixels.length = 128) : readLine (textLine pixels) = pixels := by
  have same := (halves full).1.trans (halves full).2.symm
  rw [readLine, textLine, map_upper_zipWith same, map_lower_zipWith same, List.take_append_drop]

theorem litIn_textLine (full : pixels.length = 128) :
    litIn (textLine pixels) = pixels.count true := by
  have same := (halves full).1.trans (halves full).2.symm
  rw [textLine, litIn_zipWith same, ← List.count_append, List.take_append_drop]

theorem textLine_getElem? (full : pixels.length = 128) {column : Nat} (inside : column < 64) :
    ∃ first second, pixels[column]? = some first ∧ pixels[64 + column]? = some second ∧
      (textLine pixels)[column]? = some (block first second) := by
  have above : pixels[column]? = some pixels[column] := List.getElem?_eq_getElem (by omega)
  have below : pixels[64 + column]? = some pixels[64 + column] :=
    List.getElem?_eq_getElem (by omega)
  refine ⟨_, _, above, below, List.getElem?_zipWith_eq_some.mpr ⟨_, _, ?_, ?_, rfl⟩⟩
  · show (pixels.take 64)[column]? = _
    rw [List.getElem?_take_of_lt inside, above]
  · rw [List.getElem?_drop]
    exact below

end Lines

/-! ### Texts -/

section Pairs

variable (pairs : Nat) {pixels : List Bool}

/-- The first line of a text is the first pair of lines. -/
theorem lines_textLines_succ (pixels : List Bool) :
    Text.lines (textLines (pairs + 1) pixels) =
      textLine (pixels.take 128) :: Text.lines (textLines pairs (pixels.drop 128)) :=
  Text.lines_append_break (solid_textLine _) _

theorem length_lines_textLines (pixels : List Bool) :
    (Text.lines (textLines pairs pixels)).length = pairs := by
  induction pairs generalizing pixels with
  | zero => rfl
  | succ pairs ih => rw [lines_textLines_succ, List.length_cons, ih]

theorem textLines_eq_flatMap (pixels : List Bool) :
    textLines pairs pixels = (Text.lines (textLines pairs pixels)).flatMap (· ++ ['\n']) := by
  induction pairs generalizing pixels with
  | zero => rfl
  | succ pairs ih =>
    rw [lines_textLines_succ, List.flatMap_cons, ← ih, List.append_assoc]
    rfl

/-- **The lines of a text are the pairs of lines**, one after the other. -/
theorem lines_textLines {row : Nat} (near : row < pairs) (pixels : List Bool) :
    (Text.lines (textLines pairs pixels))[row]? =
      some (textLine ((pixels.drop (128 * row)).take 128)) := by
  induction pairs generalizing row pixels with
  | zero => omega
  | succ pairs ih =>
    rw [lines_textLines_succ]
    cases row with
    | zero => rfl
    | succ row =>
      rw [List.getElem?_cons_succ, ih (by omega), List.drop_drop, Nat.mul_succ, Nat.add_comm 128]

/-- The first pair of lines is full, and there is room for the others behind it. -/
theorem room_succ {pairs : Nat} (room : 128 * (pairs + 1) ≤ pixels.length) :
    (pixels.take 128).length = 128 ∧ 128 * pairs ≤ (pixels.drop 128).length := by
  rw [List.length_take, List.length_drop]
  omega

variable {pairs} (room : 128 * pairs ≤ pixels.length)

include room

/-- **A text shows all pixels of full pairs of lines.** -/
theorem readText_textLines : readText (textLines pairs pixels) = pixels.take (128 * pairs) := by
  induction pairs generalizing pixels with
  | zero => rfl
  | succ pairs ih =>
    obtain ⟨full, roomBehind⟩ := room_succ room
    have behind := ih roomBehind
    unfold readText at behind ⊢
    rw [lines_textLines_succ, List.flatMap_cons, readLine_textLine full, behind,
      ← List.take_add, Nat.mul_succ, Nat.add_comm]

/-- **Lit pixels can be counted by the characters.** -/
theorem litIn_textLines : litIn (textLines pairs pixels) = (pixels.take (128 * pairs)).count true := by
  induction pairs generalizing pixels with
  | zero => rfl
  | succ pairs ih =>
    obtain ⟨full, roomBehind⟩ := room_succ room
    have behind := ih roomBehind
    have characters : litIn (textLines (pairs + 1) pixels) =
        litIn (textLine (pixels.take 128)) + litIn (textLines pairs (pixels.drop 128)) :=
      litIn_append (textLine (pixels.take 128)) ('\n' :: textLines pairs (pixels.drop 128))
    rw [characters, litIn_textLine full, behind, ← List.count_append, ← List.take_add,
      Nat.mul_succ, Nat.add_comm 128]

end Pairs

/-! ### The text of a screen -/

section Whole

variable (screen : Screen)

theorem toList_text : screen.text.toList = textLines (screen.size / 128) screen.pixels.toList :=
  String.toList_ofList

theorem fullPairs : 128 * (screen.size / 128) ≤ screen.pixels.toList.length :=
  Nat.mul_div_le screen.size 128

theorem readText_text :
    readText screen.text.toList = screen.pixels.toList.take (128 * (screen.size / 128)) := by
  rw [toList_text, readText_textLines screen.fullPairs]

variable {screen} (full : screen.size = 2048)

include full

theorem take_fullPairs :
    screen.pixels.toList.take (128 * (screen.size / 128)) = screen.pixels.toList := by
  refine List.take_of_length_le ?_
  show screen.size ≤ _
  omega

/-- **A standard screen is determined by its text.** -/
theorem text_inj {other : Screen} (otherFull : other.size = 2048) :
    screen.text = other.text ↔ screen = other := by
  refine ⟨fun same => ?_, congrArg text⟩
  have pixels := readText_text screen
  rw [same, readText_text, take_fullPairs full, take_fullPairs otherFull] at pixels
  exact congrArg Screen.mk (Array.toList_inj.mp pixels.symm)

theorem lit_eq_litIn : screen.lit = litIn screen.text.toList := by
  rw [toList_text, litIn_textLines screen.fullPairs, take_fullPairs full]
  rfl

end Whole

/-- **The text of a screen loses no pixel** of a full pair of lines. It has a line for each pair, and
a character for each column. A character tells the two pixels, and the text all of them, so standard
screens with the same text are equal, and their lit pixels can be counted by the characters. -/
theorem text_keeps_pixels (screen : Screen) :
    let text := screen.text.toList
    let pairs := screen.size / 128
    (Text.lines text).length = pairs ∧
      text = (Text.lines text).flatMap (· ++ ['\n']) ∧
      (∀ line ∈ Text.lines text,
        line.length = 64 ∧ ∀ character ∈ line, character ∈ ['█', '▀', '▄', ' ']) ∧
      (∀ row < pairs, ∀ column < 64, ∃ first second,
        screen.pixel? (2 * row * 64 + column) = some first ∧
          screen.pixel? ((2 * row + 1) * 64 + column) = some second ∧
          (Text.lines text)[row]?.bind (·[column]?) = some (block first second)) ∧
      (∀ first second otherFirst otherSecond,
        block first second = block otherFirst otherSecond ↔
          first = otherFirst ∧ second = otherSecond) ∧
      readText text = screen.pixels.toList.take (128 * pairs) ∧
      (screen.size = 2048 →
        (∀ other : Screen, other.size = 2048 → (screen.text = other.text ↔ screen = other)) ∧
          screen.lit = 2 * text.count '█' + text.count '▀' + text.count '▄') := by
  intro text pairs
  have characters : text = textLines pairs screen.pixels.toList := screen.toList_text
  have fullPair : ∀ row < pairs, ((screen.pixels.toList.drop (128 * row)).take 128).length = 128 := by
    intro row near
    have room := screen.fullPairs
    rw [List.length_take, List.length_drop]
    omega
  refine ⟨?_, ?_, ?_, ?_, fun _ _ _ _ => block_inj, screen.readText_text, fun full =>
    ⟨fun other otherFull => text_inj full otherFull, lit_eq_litIn full⟩⟩
  · rw [characters, length_lines_textLines]
  · rw [characters, ← textLines_eq_flatMap]
  · intro line member
    rw [characters] at member
    obtain ⟨row, found⟩ := List.getElem?_of_mem member
    have near : row < pairs := by
      rw [← length_lines_textLines pairs screen.pixels.toList]
      exact (List.getElem?_eq_some_iff.mp found).1
    rw [lines_textLines pairs near] at found
    cases found
    exact ⟨length_textLine (fullPair row near), fun _ => mem_textLine⟩
  · intro row near column inside
    obtain ⟨first, second, above, below, shown⟩ := textLine_getElem? (fullPair row near) inside
    rw [List.getElem?_take_of_lt (by omega), List.getElem?_drop, Array.getElem?_toList] at above below
    refine ⟨first, second, ?_, ?_, ?_⟩
    · rw [← above, pixel?]
      congr 1
      omega
    · rw [← below, pixel?]
      congr 1
      omega
    · rw [characters, lines_textLines pairs near]
      exact shown

/-- A dark screen, one with a single lit pixel, and one of two full pairs and a rest. -/
theorem text_keeps_pixels_ragged :
    let dark : Screen := ⟨Array.replicate 2048 false⟩
    let spot : Screen := ⟨dark.pixels.setIfInBounds 5 true⟩
    let ragged : Screen := ⟨Array.replicate 300 true⟩
    spot.text ≠ dark.text ∧
      (Text.lines spot.text.toList)[0]?.bind (·[5]?) = some '▀' ∧
      (Text.lines ragged.text.toList).length = 2 ∧
      readText ragged.text.toList = List.replicate 256 true := by
  intro dark spot ragged
  have darkSize : dark.size = 2048 := Array.size_replicate
  have raggedSize : ragged.size = 300 := Array.size_replicate
  have darkPixels : ∀ index < 2048, dark.pixel? index = some false :=
    fun index inside => Array.getElem?_eq_some_iff.mpr ⟨by simpa [dark], Array.getElem_replicate ..⟩
  clear_value dark
  have spotSize : spot.size = 2048 := Array.size_setIfInBounds.trans darkSize
  have lit : spot.pixel? 5 = some true := Array.getElem?_setIfInBounds_self_of_lt (by
    show 5 < dark.size
    omega)
  have below : spot.pixel? 69 = some false :=
    (Array.getElem?_setIfInBounds_ne (by decide)).trans (darkPixels 69 (by decide))
  obtain ⟨-, -, -, shown, -, -, whole⟩ := text_keeps_pixels spot
  obtain ⟨lines, -, -, -, -, readBack, -⟩ := text_keeps_pixels ragged
  refine ⟨fun same => ?_, ?_, ?_, ?_⟩
  · have equal := ((whole spotSize).1 dark darkSize).mp same
    rw [equal, darkPixels 5 (by decide)] at lit
    cases lit
  · obtain ⟨first, second, above, beneath, character⟩ := shown 0 (by omega) 5 (by decide)
    rw [lit] at above
    rw [below] at beneath
    cases above
    cases beneath
    exact character
  · rw [lines, raggedSize]
  · rw [readBack, raggedSize, Array.toList_replicate, List.take_replicate]
    rfl

end ChipEight.Screen
