/-
This file shows that trimming removes exactly the blanks around a text.
-/

import ExprTree.Text.Blank

namespace ExprTree.Text

def Blanks (text : List Char) : Prop := ∀ character ∈ text, isBlank character = true

instance (text : List Char) : Decidable (Blanks text) := List.decidableBAll _ text

/-- A bare text has no blank at all. -/
def Bare (text : List Char) : Prop := ∀ character ∈ text, isBlank character = false

instance (text : List Char) : Decidable (Bare text) := List.decidableBAll _ text

/-- A text is bare in front when it is empty or starts with a character that is no blank. -/
def BareFront (text : List Char) : Prop := ∀ first ∈ text.head?, isBlank first = false

/-- A core is a text without the blanks that stand before and after it. -/
structure Core (text core : List Char) : Prop where
  surrounded : ∃ before after, Blanks before ∧ Blanks after ∧ text = before ++ core ++ after
  front : BareFront core
  back : BareFront core.reverse

theorem blanksReverse {text : List Char} (blanks : Blanks text) : Blanks text.reverse :=
  fun character member => blanks character (List.mem_reverse.mp member)

theorem blanksAppend {first second : List Char} (one : Blanks first) (other : Blanks second) :
    Blanks (first ++ second) := by
  intro character member
  rcases List.mem_append.mp member with left | right
  · exact one character left
  · exact other character right

theorem dropBlanks {before text : List Char} (blanks : Blanks before) (bare : BareFront text) :
    (before ++ text).dropWhile isBlank = text := by
  rw [List.dropWhile_append_of_pos blanks]
  cases text with
  | nil => rfl
  | cons first rest =>
      rw [List.dropWhile_cons_of_neg (Bool.eq_false_iff.mp (bare first rfl))]

theorem bareDropped (text : List Char) : BareFront (text.dropWhile isBlank) := by
  intro first starts
  have stopped := List.head?_dropWhile_not isBlank text
  rw [Option.mem_def.mp starts] at stopped
  exact stopped

theorem trimSurrounded {before core after : List Char} (blanksBefore : Blanks before)
    (blanksAfter : Blanks after) (front : BareFront core) (back : BareFront core.reverse) :
    trim (before ++ core ++ after) = core := by
  cases core with
  | nil =>
      have all : (before ++ after ++ []).dropWhile isBlank = [] :=
        dropBlanks (blanksAppend blanksBefore blanksAfter) nofun
      rw [List.append_nil] at all
      rw [trim, List.append_nil, all]
      rfl
  | cons first rest =>
      have inner : BareFront (first :: rest ++ after) := front
      rw [trim, List.append_assoc, dropBlanks blanksBefore inner, List.reverse_append,
        dropBlanks (blanksReverse blanksAfter) back, List.reverse_reverse]

/-- What trimming drops at either end are the leading blanks of the text or of its reverse. -/
theorem coreTrim (text : List Char) : Core text (trim text) := by
  have leading := List.takeWhile_append_dropWhile (p := isBlank) (l := text)
  generalize rest : text.dropWhile isBlank = dropped at leading
  have trailing := List.takeWhile_append_dropWhile (p := isBlank) (l := dropped.reverse)
  have split : dropped = trim text ++ (dropped.reverse.takeWhile isBlank).reverse := by
    rw [trim, rest, ← List.reverse_append, trailing, List.reverse_reverse]
  refine ⟨⟨text.takeWhile isBlank, (dropped.reverse.takeWhile isBlank).reverse,
    List.all_eq_true.mp List.all_takeWhile,
    blanksReverse (List.all_eq_true.mp List.all_takeWhile), ?_⟩, ?_, ?_⟩
  · rw [List.append_assoc, ← split, leading]
  · intro first starts
    apply bareDropped text first
    rw [rest, split, List.head?_append, Option.mem_def.mp starts]
    rfl
  · rw [trim, List.reverse_reverse]
    exact bareDropped _

theorem coreBare {text : List Char} (bare : Bare text) : Core text text where
  surrounded := ⟨[], [], nofun, nofun, (List.append_nil text).symm⟩
  front first starts := bare first (List.mem_of_mem_head? starts)
  back last ends := bare last (List.mem_reverse.mp (List.mem_of_mem_head? ends))

/-- A text has one core, and trimming finds it. -/
theorem coreIff (text core : List Char) : Core text core ↔ core = trim text := by
  constructor
  · rintro ⟨⟨before, after, blanksBefore, blanksAfter, rfl⟩, front, back⟩
    exact (trimSurrounded blanksBefore blanksAfter front back).symm
  · rintro rfl
    exact coreTrim text

theorem trimPadded {before text after : List Char} (blanksBefore : Blanks before)
    (blanksAfter : Blanks after) : trim (before ++ text ++ after) = trim text := by
  obtain ⟨⟨first, last, blanksFirst, blanksLast, parts⟩, front, back⟩ := coreTrim text
  generalize trim text = core at parts front back ⊢
  have padded : before ++ text ++ after = (before ++ first) ++ core ++ (last ++ after) := by
    rw [parts]
    simp only [List.append_assoc]
  rw [padded]
  exact trimSurrounded (blanksAppend blanksBefore blanksFirst) (blanksAppend blanksLast blanksAfter)
    front back

end ExprTree.Text
