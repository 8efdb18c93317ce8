import Longrun.Library.Utf8

/-!
# Lines of a text

`str.splitlines` ends a line at any of ten code points and takes a carriage return and the line feed
after it for one ending; what follows the last ending is a line only when it is not empty. Joining
the lines with line feeds therefore never makes a text longer, and how much shorter it becomes is
what its endings need beyond a line feed.
-/

namespace Longrun

universe u

/-- `items[-count:]`. -/
def lastItems {Item : Type u} (count : Nat) (items : List Item) : List Item :=
  if count = 0 then items else items.rtake count

section Slices

variable {Item : Type u} {count : Nat} {items : List Item}

theorem lastItems_of_pos (positive : 0 < count) : lastItems count items = items.rtake count := by
  rw [lastItems, if_neg (by omega)]

theorem rtake_eq_drop (count : Nat) (items : List Item) :
    items.rtake count = items.drop (items.length - count) := rfl

theorem rtake_of_length_le (short : items.length ≤ count) : items.rtake count = items := by
  rw [rtake_eq_drop, Nat.sub_eq_zero_of_le short, List.drop_zero]

theorem rtake_suffix (count : Nat) (items : List Item) : items.rtake count <:+ items :=
  List.drop_suffix _ _

theorem length_rtake (count : Nat) (items : List Item) :
    (items.rtake count).length = min count items.length := by
  rw [rtake_eq_drop, List.length_drop]
  omega

/-- What is cut off the front before something is added would be cut off afterwards. -/
theorem rtake_rtake_append (count : Nat) (items added : List Item) :
    (items.rtake count ++ added).rtake count = (items ++ added).rtake count := by
  simp only [rtake_eq_drop, List.length_append, List.length_drop, List.drop_append]
  rw [List.drop_drop]
  congr 2 <;> omega

theorem rtake_cons_of_le {item : Item} (short : count ≤ items.length) :
    (item :: items).rtake count = items.rtake count := by
  rw [rtake_eq_drop, rtake_eq_drop, List.length_cons, Nat.sub_add_comm short, List.drop_succ_cons]

/-- Where something lies in the last items of the beginning of a list. -/
theorem infix_rtake_iff {part seen whole : List Item} (begins : seen <+: whole) :
    part <:+: seen.rtake count ↔
      ∃ start, part <+: whole.drop start ∧ start + part.length ≤ seen.length ∧
        seen.length ≤ start + count := by
  rcases begins with ⟨more, rfl⟩
  rw [rtake_eq_drop]
  constructor
  · rintro ⟨before, after, same⟩
    have length := congrArg List.length same
    simp only [List.length_append, List.length_drop] at length
    refine ⟨seen.length - count + before.length, ?_, by omega, by omega⟩
    rw [← List.drop_drop, List.drop_append_of_le_length (Nat.sub_le _ _), ← same]
    simp [List.append_assoc]
  · rintro ⟨start, isPrefix, inside, reached⟩
    have here : part <+: seen.drop start := by
      rw [List.drop_append_of_le_length (by omega)] at isPrefix
      exact List.prefix_of_prefix_length_le isPrefix (List.prefix_append _ _)
        (by rw [List.length_drop]; omega)
    exact here.isInfix.trans (List.drop_suffix_drop_left _ (by omega)).isInfix

end Slices

namespace CodePoint

def lineFeed : CodePoint := 0x0A

def carriageReturn : CodePoint := 0x0D

/-- A code point at which `str.splitlines` ends a line. -/
def endsLine (point : CodePoint) : Bool :=
  [lineFeed, 0x0B, 0x0C, carriageReturn, 0x1C, 0x1D, 0x1E, 0x85, 0x2028, 0x2029].contains point

end CodePoint

namespace Text

open CodePoint

/-- A code point before the lines of the rest, on the first of them. -/
def onFirstLine (point : CodePoint) : List Text → List Text
  | [] => [[point]]
  | line :: lines => (point :: line) :: lines

/-- `str.splitlines`, after a carriage return or not. -/
def splitlinesFrom (afterReturn : Bool) : Text → List Text
  | [] => []
  | point :: text =>
      if afterReturn ∧ point = lineFeed then splitlinesFrom false text
      else if point.endsLine then [] :: splitlinesFrom (point = carriageReturn) text
      else onFirstLine point (splitlinesFrom false text)

/-- `text.splitlines()`. -/
def splitlines (text : Text) : List Text := splitlinesFrom false text

/-- `"\n".join(lines)`. -/
def joinLines (lines : List Text) : Text := [lineFeed].intercalate lines

example : splitlines (ofString "one\r\ntwo\n\nthree\n") =
    [ofString "one", ofString "two", [], ofString "three"] := by decide

variable {point : CodePoint} {text line : Text} {lines : List Text} {afterReturn : Bool}

/-- A text in which no line ends. -/
def Unbroken (text : Text) : Prop := ∀ point ∈ text, point.endsLine = false

@[simp]
theorem endsLine_lineFeed : lineFeed.endsLine = true := by decide

@[simp]
theorem splitlinesFrom_nil : splitlinesFrom afterReturn [] = [] := rfl

theorem splitlinesFrom_of_endsLine (ends : point.endsLine = true)
    (apart : ¬ (afterReturn = true ∧ point = lineFeed)) :
    splitlinesFrom afterReturn (point :: text) =
      [] :: splitlinesFrom (point = carriageReturn) text := by
  rw [splitlinesFrom, if_neg apart, if_pos ends]

theorem splitlinesFrom_of_not_endsLine (goesOn : point.endsLine = false) :
    splitlinesFrom afterReturn (point :: text) = onFirstLine point (splitlines text) := by
  have other : point ≠ lineFeed := fun same => by simp [same] at goesOn
  rw [splitlinesFrom, if_neg (fun both => other both.2), if_neg (by simp [goesOn]), splitlines]

/-- A text without a line feed is split alike after a carriage return. -/
theorem splitlinesFrom_eq (free : lineFeed ∉ text) :
    splitlinesFrom afterReturn text = splitlines text := by
  cases text with
  | nil => rfl
  | cons point text =>
      have other : point ≠ lineFeed := fun same => free (same ▸ List.mem_cons_self)
      simp [splitlines, splitlinesFrom, other]

theorem splitlines_eq_nil_iff : splitlines text = [] ↔ text = [] := by
  cases text with
  | nil => simp [splitlines]
  | cons point text =>
      cases ends : point.endsLine with
      | true => simp [splitlines, splitlinesFrom_of_endsLine ends]
      | false =>
          rw [splitlines, splitlinesFrom_of_not_endsLine ends]
          cases splitlines text <;> simp [onFirstLine]

/-! ### Joining -/

@[simp]
theorem joinLines_nil : joinLines [] = [] := rfl

@[simp]
theorem joinLines_singleton (line : Text) : joinLines [line] = line := by
  simp [joinLines, List.intercalate]

@[simp]
theorem joinLines_cons_cons (line next : Text) (lines : List Text) :
    joinLines (line :: next :: lines) = line ++ lineFeed :: joinLines (next :: lines) := by
  simp [joinLines, List.intercalate]

theorem joinLines_onFirstLine (point : CodePoint) (lines : List Text) :
    joinLines (onFirstLine point lines) = point :: joinLines lines := by
  match lines with
  | [] => simp [onFirstLine]
  | [line] => simp [onFirstLine]
  | line :: next :: lines => simp [onFirstLine]

theorem encode_lineFeed : lineFeed.encode = [0x0A] := by decide

/-- A line ending needs at least the byte of a line feed. -/
theorem size_joinLines_cons_nil (lines : List Text) :
    (encode (joinLines ([] :: lines))).length ≤ 1 + (encode (joinLines lines)).length := by
  cases lines with
  | nil => simp
  | cons line lines =>
      rw [joinLines_cons_cons]
      simp [encode_lineFeed, Nat.add_comm]

/-- The lines of a text, joined, are no longer than the text. -/
theorem size_joinLines_splitlinesFrom (afterReturn : Bool) (text : Text) :
    (encode (joinLines (splitlinesFrom afterReturn text))).length ≤ (encode text).length := by
  induction text generalizing afterReturn with
  | nil => simp
  | cons point text ih =>
      rw [encode_cons, List.length_append, splitlinesFrom]
      have positive := point.encode_length_pos
      split_ifs with skipped ends
      · have rest := ih false
        omega
      · have rest := ih (decide (point = carriageReturn))
        have joined := size_joinLines_cons_nil (splitlinesFrom (point = carriageReturn) text)
        omega
      · have rest := ih false
        rw [joinLines_onFirstLine, encode_cons, List.length_append]
        omega

/-- Leaving out lines at the front makes what is joined shorter. -/
theorem size_joinLines_of_suffix {all : List Text} (suffix : lines <:+ all) :
    (encode (joinLines lines)).length ≤ (encode (joinLines all)).length := by
  rcases suffix with ⟨front, rfl⟩
  induction front with
  | nil => simp
  | cons line front ih =>
      rw [List.cons_append]
      cases rest : front ++ lines with
      | nil =>
          rw [rest] at ih
          simp at ih
          simp [ih]
      | cons next others =>
          rw [rest] at ih
          rw [joinLines_cons_cons, encode_append, encode_cons, List.length_append,
            List.length_append]
          omega

/-- How many bytes the line endings of a text need beyond one line feed between two lines. -/
def spareBytes (text : Text) : Nat :=
  ((text.filter CodePoint.endsLine).map fun point => point.encode.length - 1).sum +
    if text.getLast?.any CodePoint.endsLine then 1 else 0

theorem spareBytes_cons_of_ne_nil (point : CodePoint) (some : text ≠ []) :
    spareBytes (point :: text) =
      (if point.endsLine then point.encode.length - 1 else 0) + spareBytes text := by
  have last : (point :: text).getLast? = text.getLast? := by
    rw [List.getLast?_cons, List.getLast?_eq_some_getLast some]
    rfl
  rw [spareBytes, last, spareBytes, List.filter_cons]
  split <;> simp [Nat.add_assoc]

/-- Without line feeds a text and its joined lines differ by the spare bytes. -/
theorem size_joinLines_splitlines (free : lineFeed ∉ text) :
    (encode (joinLines (splitlines text))).length + spareBytes text = (encode text).length := by
  induction text with
  | nil => simp [splitlines, spareBytes]
  | cons point text ih =>
      have rest := ih fun mem => free (List.mem_cons_of_mem _ mem)
      have positive := point.encode_length_pos
      have other : point ≠ lineFeed := fun same => free (same ▸ List.mem_cons_self)
      rw [encode_cons, List.length_append]
      cases ends : point.endsLine with
      | true =>
          rw [splitlines, splitlinesFrom_of_endsLine ends (by simp),
            splitlinesFrom_eq fun mem => free (List.mem_cons_of_mem _ mem)]
          cases lines : splitlines text with
          | nil =>
              rcases splitlines_eq_nil_iff.mp lines with rfl
              simp [spareBytes, ends]
              omega
          | cons line others =>
              have some : text ≠ [] := fun none => by simp [none, splitlines] at lines
              rw [spareBytes_cons_of_ne_nil point some, if_pos ends, joinLines_cons_cons]
              rw [lines] at rest
              simp only [List.nil_append, encode_cons, encode_lineFeed, List.length_append,
                List.length_singleton]
              omega
      | false =>
          rw [splitlines, splitlinesFrom_of_not_endsLine ends, joinLines_onFirstLine, encode_cons,
            List.length_append]
          rcases Decidable.em (text = []) with rfl | some
          · simp [spareBytes, ends, splitlines]
          · rw [spareBytes_cons_of_ne_nil point some]
            simp [ends]
            omega

/-! ### The lines themselves -/

theorem unbroken_nil : Unbroken [] := by simp [Unbroken]

theorem unbroken_cons : Unbroken (point :: text) ↔ point.endsLine = false ∧ Unbroken text := by
  simp [Unbroken]

theorem Unbroken.lineFeed_not_mem (unbroken : Unbroken text) : lineFeed ∉ text := fun mem => by
  simpa using unbroken lineFeed mem

/-- No line ends inside a line. -/
theorem unbroken_of_mem_splitlinesFrom (mem : line ∈ splitlinesFrom afterReturn text) :
    Unbroken line := by
  induction text generalizing afterReturn line with
  | nil => simp at mem
  | cons point text ih =>
      rw [splitlinesFrom] at mem
      split_ifs at mem with skipped ends
      · exact ih mem
      · rcases List.mem_cons.mp mem with rfl | mem
        · exact unbroken_nil
        · exact ih mem
      · have goesOn : point.endsLine = false := by simpa using ends
        cases lines : splitlinesFrom false text with
        | nil =>
            simp only [lines, onFirstLine, List.mem_singleton] at mem
            rcases mem with rfl
            exact unbroken_cons.mpr ⟨goesOn, unbroken_nil⟩
        | cons first others =>
            simp only [lines, onFirstLine, List.mem_cons] at mem
            have old : ∀ other ∈ first :: others, Unbroken other := fun other mem =>
              ih (lines ▸ mem)
            rcases mem with rfl | mem
            · exact unbroken_cons.mpr ⟨goesOn, old first List.mem_cons_self⟩
            · exact old line (List.mem_cons_of_mem _ mem)

/-- Unbroken text before a text lengthens its first line. -/
theorem splitlines_append_of_unbroken (unbroken : Unbroken line) (text : Text) :
    splitlines (line ++ text) = line.foldr onFirstLine (splitlines text) := by
  induction line with
  | nil => rfl
  | cons point line ih =>
      rcases unbroken_cons.mp unbroken with ⟨goesOn, unbroken⟩
      rw [List.cons_append, splitlines, splitlinesFrom_of_not_endsLine goesOn, ih unbroken]
      rfl

theorem foldr_onFirstLine_cons (added first : Text) (lines : List Text) :
    added.foldr onFirstLine (first :: lines) = (added ++ first) :: lines := by
  induction added with
  | nil => rfl
  | cons point added ih => simp [ih, onFirstLine]

theorem foldr_onFirstLine_nil (added : Text) (some : added ≠ []) :
    added.foldr onFirstLine [] = [added] := by
  rcases List.eq_nil_or_concat added with rfl | ⟨front, point, rfl⟩
  · exact absurd rfl some
  · simp [onFirstLine, foldr_onFirstLine_cons]

theorem splitlines_of_unbroken (unbroken : Unbroken line) (some : line ≠ []) :
    splitlines line = [line] := by
  have whole := splitlines_append_of_unbroken unbroken []
  rw [List.append_nil] at whole
  rw [whole, splitlines, splitlinesFrom_nil, foldr_onFirstLine_nil line some]

/-- A line, its ending and the lines after it. -/
theorem splitlines_line (unbroken : Unbroken line) (text : Text) :
    splitlines (line ++ lineFeed :: text) = line :: splitlines text := by
  have ended : splitlines (lineFeed :: text) = [] :: splitlines text := by
    rw [splitlines, splitlinesFrom_of_endsLine endsLine_lineFeed (by simp), splitlines]
    rfl
  rw [splitlines_append_of_unbroken unbroken, ended, foldr_onFirstLine_cons, List.append_nil]

/-- Lines that were joined are split as they were, but an empty last line is lost. -/
theorem splitlines_joinLines (unbroken : ∀ line ∈ lines, Unbroken line) :
    splitlines (joinLines lines) = if lines.getLast? = some [] then lines.dropLast else lines := by
  induction lines with
  | nil => rfl
  | cons line lines ih =>
      have here := unbroken line List.mem_cons_self
      have rest := ih fun other mem => unbroken other (List.mem_cons_of_mem _ mem)
      cases lines with
      | nil =>
          rw [joinLines_singleton]
          rcases Decidable.em (line = []) with rfl | some
          · simp [splitlines]
          · simp [splitlines_of_unbroken here some, some]
      | cons next lines =>
          rw [joinLines_cons_cons, splitlines_line here, rest, List.getLast?_cons_cons,
            List.dropLast_cons_cons]
          split <;> rfl

/-- Joining lines makes no new ones. -/
theorem length_splitlines_joinLines (unbroken : ∀ line ∈ lines, Unbroken line) :
    (splitlines (joinLines lines)).length ≤ lines.length := by
  rw [splitlines_joinLines unbroken]
  split
  · rw [List.length_dropLast]
    omega
  · exact le_rfl

/-! ### The last line -/

/-- What may end the last line of a text. -/
def IsEnding (ending : Text) : Prop :=
  ending = [] ∨ (∃ point : CodePoint, point.endsLine = true ∧ ending = [point]) ∨
    ending = [carriageReturn, lineFeed]

/-- A text up to a place where a line begins. -/
def BeginsLine (front : Text) : Prop := ∀ point, front.getLast? = some point → point.endsLine = true

/-- Where the last line of a text is. -/
structure IsLastLine (text front line ending : Text) : Prop where
  split : text = front ++ (line ++ ending)
  begins : BeginsLine front
  unbroken : Unbroken line
  filled : line ≠ []
  ends : IsEnding ending

variable {front ending : Text}

theorem beginsLine_nil : BeginsLine [] := by simp [BeginsLine]

theorem beginsLine_cons_iff (some : front ≠ []) :
    BeginsLine (point :: front) ↔ BeginsLine front := by
  simp [BeginsLine, List.getLast?_cons, List.getLast?_eq_some_getLast some]

theorem splitlines_ending (ends : IsEnding ending) :
    splitlines ending = [] ∨ splitlines ending = [[]] := by
  rcases ends with rfl | ⟨point, ends, rfl⟩ | rfl
  · exact .inl rfl
  · exact .inr (by simp [splitlines, splitlinesFrom_of_endsLine ends])
  · exact .inr (by decide)

theorem splitlines_line_ending (unbroken : Unbroken line) (some : line ≠ [])
    (ends : IsEnding ending) : splitlines (line ++ ending) = [line] := by
  rw [splitlines_append_of_unbroken unbroken]
  rcases splitlines_ending ends with none | one
  · rw [none, foldr_onFirstLine_nil line some]
  · rw [one, foldr_onFirstLine_cons, List.append_nil]

theorem splitlinesFrom_line_ending (unbroken : Unbroken line) (some : line ≠ [])
    (ends : IsEnding ending) : splitlinesFrom afterReturn (line ++ ending) = [line] := by
  rcases List.exists_cons_of_ne_nil some with ⟨point, rest, rfl⟩
  have goesOn := (unbroken_cons.mp unbroken).1
  have whole := splitlines_line_ending unbroken some ends
  rw [List.cons_append, splitlines, splitlinesFrom_of_not_endsLine goesOn] at whole
  rw [List.cons_append, splitlinesFrom_of_not_endsLine goesOn, whole]

/-- A last line stands last, and alone only when nothing is before it. -/
theorem splitlinesFrom_front (begins : BeginsLine front) (unbroken : Unbroken line)
    (some : line ≠ []) (ends : IsEnding ending) (afterReturn : Bool) :
    ∃ others, splitlinesFrom afterReturn (front ++ (line ++ ending)) = others ++ [line] ∧
      (afterReturn = false → front ≠ [] → others ≠ []) := by
  induction front generalizing afterReturn with
  | nil => exact ⟨[], by simp [splitlinesFrom_line_ending unbroken some ends], by simp⟩
  | cons point front ih =>
      have begins_front : BeginsLine front := by
        rcases Decidable.em (front = []) with rfl | more
        · exact beginsLine_nil
        · exact (beginsLine_cons_iff more).mp begins
      rw [List.cons_append, splitlinesFrom]
      split_ifs with skipped endsHere
      · rcases ih begins_front false with ⟨others, same, -⟩
        exact ⟨others, same, by simp [skipped.1]⟩
      · rcases ih begins_front (point = carriageReturn) with ⟨others, same, -⟩
        exact ⟨[] :: others, by rw [same]; rfl, by simp⟩
      · rcases ih begins_front false with ⟨others, same, apart⟩
        have more : front ≠ [] := fun none => by
          have last := begins point (by simp [none])
          exact absurd last endsHere
        rcases List.exists_cons_of_ne_nil (apart rfl more) with ⟨first, rest, rfl⟩
        exact ⟨(point :: first) :: rest, by simp [same, onFirstLine], by simp⟩

theorem IsLastLine.getLast? (isLast : IsLastLine text front line ending) :
    (splitlines text).getLast? = some line := by
  rcases splitlinesFrom_front isLast.begins isLast.unbroken isLast.filled isLast.ends false with
    ⟨others, same, -⟩
  rw [splitlines, isLast.split, same]
  simp

theorem eq_of_splitlinesFrom_nil (none : splitlinesFrom true text = []) :
    text = [] ∨ text = [lineFeed] := by
  cases text with
  | nil => exact .inl rfl
  | cons point text =>
      rw [splitlinesFrom] at none
      split_ifs at none with skipped ends
      · rcases splitlines_eq_nil_iff.mp none with rfl
        exact .inr (by rw [skipped.2])
      · cases lines : splitlinesFrom false text <;> simp [lines, onFirstLine] at none

/-- A text of one line is the line and what ends it. -/
theorem eq_of_splitlines_singleton (one : splitlines text = [line]) :
    ∃ ending, text = line ++ ending ∧ IsEnding ending := by
  induction text generalizing line with
  | nil => simp [splitlines] at one
  | cons point text ih =>
      cases ends : point.endsLine with
      | true =>
          rw [splitlines, splitlinesFrom_of_endsLine ends (by simp)] at one
          rcases List.cons.inj one with ⟨rfl, rest⟩
          rcases Decidable.em (point = carriageReturn) with rfl | other
          · rcases eq_of_splitlinesFrom_nil (by simpa using rest) with rfl | rfl
            · exact ⟨[carriageReturn], rfl, .inr (.inl ⟨_, ends, rfl⟩)⟩
            · exact ⟨[carriageReturn, lineFeed], rfl, .inr (.inr rfl)⟩
          · simp only [other, decide_false] at rest
            rcases splitlines_eq_nil_iff.mp rest with rfl
            exact ⟨[point], rfl, .inr (.inl ⟨_, ends, rfl⟩)⟩
      | false =>
          rw [splitlines, splitlinesFrom_of_not_endsLine ends] at one
          cases lines : splitlines text with
          | nil =>
              rcases splitlines_eq_nil_iff.mp lines with rfl
              simp only [lines, onFirstLine, List.cons.injEq, and_true] at one
              exact ⟨[], by simp [← one], .inl rfl⟩
          | cons first others =>
              simp only [lines, onFirstLine, List.cons.injEq] at one
              rcases one with ⟨rfl, rfl⟩
              rcases ih lines with ⟨ending, rfl, isEnding⟩
              exact ⟨ending, rfl, isEnding⟩

theorem exists_isLastLine_from (last : (splitlinesFrom afterReturn text).getLast? = some line)
    (some : line ≠ []) : ∃ front ending, IsLastLine text front line ending := by
  induction text generalizing afterReturn line with
  | nil => simp at last
  | cons point text ih =>
      have extend (other : Bool) (lastRest : (splitlinesFrom other text).getLast? = .some line)
          (begins : ∀ front ending, IsLastLine text front line ending →
            BeginsLine (point :: front)) :
          ∃ front ending, IsLastLine (point :: text) front line ending := by
        rcases ih lastRest some with ⟨front, ending, isLast⟩
        exact ⟨point :: front, ending, by rw [isLast.split]; rfl, begins front ending isLast,
          isLast.unbroken, some, isLast.ends⟩
      have begins_of_ends (ends : point.endsLine = true) (front ending : Text)
          (isLast : IsLastLine text front line ending) : BeginsLine (point :: front) := by
        rcases Decidable.em (front = []) with rfl | more
        · intro other isPoint
          simp only [List.getLast?_singleton, Option.some.injEq] at isPoint
          rw [← isPoint, ends]
        · exact (beginsLine_cons_iff more).mpr isLast.begins
      rw [splitlinesFrom] at last
      split_ifs at last with skipped ends
      · exact extend false last (begins_of_ends (by simp [skipped.2]))
      · cases lines : splitlinesFrom (point = carriageReturn) text with
        | nil =>
            simp only [lines, List.getLast?_singleton, Option.some.injEq] at last
            exact absurd last.symm some
        | cons first others =>
            rw [lines, List.getLast?_cons_cons, ← lines] at last
            exact extend _ last (begins_of_ends ends)
      · have goesOn : point.endsLine = false := by simpa using ends
        cases lines : splitlinesFrom false text with
        | nil =>
            rcases splitlines_eq_nil_iff.mp lines with rfl
            simp only [lines, onFirstLine, List.getLast?_singleton, Option.some.injEq] at last
            rcases last with rfl
            exact ⟨[], [], by simp, beginsLine_nil, unbroken_cons.mpr ⟨goesOn, unbroken_nil⟩,
              some, .inl rfl⟩
        | cons first others =>
            cases others with
            | nil =>
                simp only [lines, onFirstLine, List.getLast?_singleton, Option.some.injEq] at last
                rcases last with rfl
                rcases eq_of_splitlines_singleton lines with ⟨ending, rfl, isEnding⟩
                have inside : Unbroken first :=
                  unbroken_of_mem_splitlinesFrom (lines ▸ List.mem_cons_self)
                exact ⟨[], ending, rfl, beginsLine_nil, unbroken_cons.mpr ⟨goesOn, inside⟩, some,
                  isEnding⟩
            | cons second others =>
                rw [lines, onFirstLine, List.getLast?_cons_cons, ← List.getLast?_cons_cons (a := first),
                  ← lines] at last
                refine extend false last fun front ending isLast => ?_
                refine (beginsLine_cons_iff fun none => ?_).mpr isLast.begins
                have one := splitlines_line_ending isLast.unbroken some isLast.ends
                rw [isLast.split, none, List.nil_append] at lines
                rw [splitlines, lines] at one
                simp at one

/-- The last line of a text is where `splitlines` finds it. -/
theorem exists_isLastLine (last : (splitlines text).getLast? = some line) (some : line ≠ []) :
    ∃ front ending, IsLastLine text front line ending :=
  exists_isLastLine_from last some

/-! ### Encoding and lines -/

@[simp]
theorem endsLine_encodable (point : CodePoint) : point.encodable.endsLine = point.endsLine := by
  rw [CodePoint.encodable]
  split_ifs with surrogate
  · rcases surrogate with ⟨least, most⟩
    cases ends : point.endsLine with
    | false => decide
    | true =>
        simp only [CodePoint.endsLine, List.contains_eq_mem, List.mem_cons, List.not_mem_nil,
          or_false, decide_eq_true_eq] at ends
        rcases ends with rfl | rfl | rfl | rfl | rfl | rfl | rfl | rfl | rfl | rfl <;>
          exact absurd least (by decide)
  · rfl

theorem encodable_of_endsLine {point : CodePoint} (ends : point.endsLine = true) :
    point.encodable = point := by
  rw [CodePoint.encodable]
  split_ifs with surrogate
  · have same := endsLine_encodable point
    rw [CodePoint.encodable, if_pos surrogate, ends] at same
    exact absurd same (by decide)
  · rfl

theorem map_encodable_ending {ending : Text} (ends : IsEnding ending) :
    ending.map CodePoint.encodable = ending := by
  rcases ends with rfl | ⟨point, ends, rfl⟩ | rfl
  · rfl
  · simp [encodable_of_endsLine ends]
  · decide

theorem IsEnding.length_le {ending : Text} (ends : IsEnding ending) : ending.length ≤ 2 := by
  rcases ends with rfl | ⟨point, ends, rfl⟩ | rfl <;> simp

theorem Unbroken.map (unbroken : Unbroken text) : Unbroken (text.map CodePoint.encodable) := by
  intro point mem
  rcases List.mem_map.mp mem with ⟨old, isOld, rfl⟩
  rw [endsLine_encodable]
  exact unbroken old isOld

theorem Unbroken.append {rest : Text} (unbroken : Unbroken text) (others : Unbroken rest) :
    Unbroken (text ++ rest) := fun point mem =>
  (List.mem_append.mp mem).elim (unbroken point) (others point)

theorem Unbroken.of_suffix {rest : Text} (unbroken : Unbroken text) (suffix : rest <:+ text) :
    Unbroken rest := fun point mem => unbroken point (suffix.mem mem)

/-- A text that is not empty and ends where a line begins. -/
theorem BeginsLine.append {front rest : Text} (begins : BeginsLine rest) (filled : rest ≠ []) :
    BeginsLine (front ++ rest) := by
  intro point isLast
  rw [List.getLast?_append_of_ne_nil _ filled] at isLast
  exact begins point isLast

theorem BeginsLine.of_append {front rest : Text} (begins : BeginsLine (front ++ rest)) :
    BeginsLine rest := by
  intro point isLast
  have filled : rest ≠ [] := fun none => by simp [none] at isLast
  exact begins point (by rw [List.getLast?_append_of_ne_nil _ filled, isLast])

theorem BeginsLine.map (begins : BeginsLine text) :
    BeginsLine (text.map CodePoint.encodable) := by
  intro point isLast
  rw [List.getLast?_map] at isLast
  rcases Option.map_eq_some_iff.mp isLast with ⟨old, isOld, rfl⟩
  rw [endsLine_encodable]
  exact begins old isOld

end Text

end Longrun
