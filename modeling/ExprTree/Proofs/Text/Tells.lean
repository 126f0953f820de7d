/-
This file shows that quoted names can be told apart whatever text follows them.
-/

import ExprTree.Text.Quoted
import Mathlib.Data.List.Forall2

namespace ExprTree.Text

/--
Two texts tell a fact when they have equal continuations only if the fact holds.
The rests after the two texts are then the same.
-/
def Tells (fact : Prop) (first second : List Char) : Prop :=
  ∀ rest other, first ++ rest = second ++ other → fact ∧ rest = other

theorem Tells.imp {fact weaker : Prop} {first second : List Char} (tells : Tells fact first second)
    (implies : fact → weaker) : Tells weaker first second := by
  intro rest other same
  obtain ⟨holds, equal⟩ := tells rest other same
  exact ⟨implies holds, equal⟩

theorem tellsSame (text : List Char) : Tells True text text :=
  fun _ _ same => ⟨trivial, List.append_cancel_left same⟩

/-- The second parts need to tell their fact only when the first parts have told theirs. -/
theorem tellsAppend {fact next : Prop} {first second firstNext secondNext : List Char}
    (tells : Tells fact first second) (tellsNext : fact → Tells next firstNext secondNext) :
    Tells (fact ∧ next) (first ++ firstNext) (second ++ secondNext) := by
  intro rest other same
  rw [List.append_assoc, List.append_assoc] at same
  obtain ⟨holds, remaining⟩ := tells _ _ same
  obtain ⟨holdsNext, equal⟩ := tellsNext holds _ _ remaining
  exact ⟨⟨holds, holdsNext⟩, equal⟩

/-- Texts are apart when neither starts with the other. -/
def Apart (first second : List Char) : Prop := ¬first <+: second ∧ ¬second <+: first

instance (first second : List Char) : Decidable (Apart first second) :=
  inferInstanceAs (Decidable (_ ∧ _))

theorem Apart.append {start other : List Char} (apart : Apart start other)
    (first second : List Char) : start ++ first ≠ other ++ second := by
  intro same
  have begins : start <+: other ++ second := same ▸ List.prefix_append start first
  rcases List.prefix_or_prefix_of_prefix begins (List.prefix_append other second) with one | two
  · exact apart.1 one
  · exact apart.2 two

/-- Texts with starts that are apart tell any fact. -/
theorem tellsApart {fact : Prop} {start other : List Char} (apart : Apart start other)
    (first second : List Char) : Tells fact (start ++ first) (other ++ second) := by
  intro rest last same
  rw [List.append_assoc, List.append_assoc] at same
  exact absurd same (apart.append _ _)

/-- A text ends at the first mark after it when it has no mark of its own. -/
theorem tellsUntil {mark : Char} {first second : List Char} (bare : mark ∉ first)
    (bareOther : mark ∉ second) : Tells (first = second) (first ++ [mark]) (second ++ [mark]) := by
  intro rest other same
  rw [List.append_assoc, List.append_assoc] at same
  induction first generalizing second with
  | nil =>
      cases second with
      | nil => exact ⟨rfl, (List.cons.inj same).2⟩
      | cons character others =>
          cases same
          exact absurd List.mem_cons_self bareOther
  | cons character others ih =>
      cases second with
      | nil =>
          cases same
          exact absurd List.mem_cons_self bare
      | cons otherCharacter remaining =>
          obtain ⟨rfl, below⟩ := List.cons.inj same
          obtain ⟨rfl, equal⟩ := ih (mt (List.mem_cons_of_mem _) bare)
            (mt (List.mem_cons_of_mem _) bareOther) below
          exact ⟨rfl, equal⟩

/-- A list ends where no item starts, so its items are told one after the other. -/
theorem tellsList {Item Other : Type} {related : Item → Other → Prop} {write : Item → List Char}
    {writeOther : Other → List Char} {stop : List Char} {items : List Item} {others : List Other}
    (each : ∀ item ∈ items, ∀ other ∈ others,
      Tells (related item other) (write item) (writeOther other))
    (starts : ∀ item rest after, write item ++ rest ≠ stop ++ after)
    (startsOther : ∀ other rest after, writeOther other ++ rest ≠ stop ++ after) :
    Tells (List.Forall₂ related items others) (items.flatMap write ++ stop)
      (others.flatMap writeOther ++ stop) := by
  intro rest last same
  rw [List.append_assoc, List.append_assoc] at same
  induction items generalizing others with
  | nil =>
      cases others with
      | nil => exact ⟨.nil, List.append_cancel_left same⟩
      | cons other others =>
          rw [List.flatMap_cons, List.append_assoc] at same
          exact absurd same.symm (startsOther _ _ _)
  | cons item items ih =>
      cases others with
      | nil =>
          rw [List.flatMap_cons, List.append_assoc] at same
          exact absurd same (starts _ _ _)
      | cons other others =>
          rw [List.flatMap_cons, List.flatMap_cons, List.append_assoc, List.append_assoc] at same
          obtain ⟨head, below⟩ :=
            each item List.mem_cons_self other List.mem_cons_self _ _ same
          obtain ⟨tail, equal⟩ := ih (fun item member other memberOther =>
            each item (List.mem_cons_of_mem _ member) other
              (List.mem_cons_of_mem _ memberOther)) below
          exact ⟨.cons head tail, equal⟩

/-- A reader that gives back what was written, with the rest, tells what was written. -/
theorem tellsRead {Item : Type} {write : Item → List Char}
    (read : List Char → Option (Item × List Char))
    (law : ∀ item rest, read (write item ++ rest) = some (item, rest)) (first second : Item) :
    Tells (first = second) (write first) (write second) := by
  intro rest other same
  have equal := congrArg read same
  rw [law, law] at equal
  exact Prod.mk.inj (Option.some.inj equal)

def hexadecimalDigit (digit : Char) : Nat :=
  if digit.isDigit then digit.toNat - 48 else digit.toNat - 87

def hexadecimalValue (digits : List Char) : Nat :=
  digits.foldl (fun value digit => 16 * value + hexadecimalDigit digit) 0

/-- The code is read back from its digits, and no mark is one of them. -/
theorem readHexadecimal (code : Nat) :
    hexadecimalValue (hexadecimal code) = code ∧
      ∀ digit ∈ hexadecimal code, digit.isAlphanum = true := by
  have each : ∀ digit : Fin 16, hexadecimalDigit digit.val.digitChar = digit.val ∧
      digit.val.digitChar.isAlphanum = true := by decide
  induction code using Nat.strongRecOn with
  | ind code ih =>
      rw [hexadecimal, Nat.toDigits_eq_if (by decide)]
      split
      case isTrue small => simpa [hexadecimalValue] using each ⟨code, small⟩
      case isFalse large =>
          obtain ⟨head, bare⟩ := ih (code / 16) (by omega)
          obtain ⟨last, lastBare⟩ := each ⟨code % 16, Nat.mod_lt _ (by decide)⟩
          rw [hexadecimalValue, hexadecimal] at head
          constructor
          · rw [hexadecimalValue, List.foldl_append, head, List.foldl_cons, List.foldl_nil, last]
            exact Nat.div_add_mod code 16
          · rw [List.forall_mem_append, List.forall_mem_singleton]
            exact ⟨bare, lastBare⟩

theorem hexadecimalBare (code : Nat) {mark : Char} (foreign : mark.isAlphanum = false) :
    mark ∉ hexadecimal code := by
  intro member
  rw [(readHexadecimal code).2 mark member] at foreign
  cases foreign

theorem hexadecimalInjective {first second : Nat} (same : hexadecimal first = hexadecimal second) :
    first = second := by
  rw [← (readHexadecimal first).1, same, (readHexadecimal second).1]

/-- The letter after a backslash stands for a character. -/
def escaped : Char → Char
  | 'n' => '\n'
  | 'r' => '\r'
  | 't' => '\t'
  | '0' => '\x00'
  | character => character

/-- An escape is read back up to its end, and any other character is read as itself. -/
def readEscaped : List Char → Option (Char × List Char)
  | '\\' :: 'u' :: '\x7b' :: text =>
      some (Char.ofNat (hexadecimalValue (text.takeWhile (· ≠ '\x7d'))),
        (text.dropWhile (· ≠ '\x7d')).tail)
  | '\\' :: letter :: rest => some (escaped letter, rest)
  | character :: rest => some (character, rest)
  | [] => none

theorem readConcealed (character : Char) (rest : List Char) :
    readEscaped ('\\' :: 'u' :: '\x7b' :: (hexadecimal character.toNat ++ '\x7d' :: rest)) =
      some (character, rest) := by
  have digits : ∀ digit ∈ hexadecimal character.toNat, decide (digit ≠ '\x7d') = true := by
    rintro digit member
    refine decide_eq_true ?_
    rintro rfl
    exact hexadecimalBare _ (by decide) member
  rw [readEscaped, List.takeWhile_append_of_pos digits, List.dropWhile_append_of_pos digits,
    List.takeWhile_cons_of_neg (by decide), List.dropWhile_cons_of_neg (by decide),
    List.append_nil, (readHexadecimal character.toNat).1, Char.ofNat_toNat, List.tail_cons]

theorem readEscape (character : Char) (rest : List Char) :
    readEscaped (escape character ++ rest) = some (character, rest) := by
  unfold escape
  split_ifs with quotation backslash line carriage tab null concealed
  · rw [quotation]
    rfl
  · rw [backslash]
    rfl
  · rw [line]
    rfl
  · rw [carriage]
    rfl
  · rw [tab]
    rfl
  · rw [null]
    rfl
  · simpa using readConcealed character rest
  · simp [readEscaped, backslash]

theorem tellsEscape (first second : Char) :
    Tells (first = second) (escape first) (escape second) :=
  tellsRead readEscaped readEscape first second

/-- A bare quotation mark is not the start of any escape. -/
theorem escapeStarts (character : Char) (rest after : List Char) :
    escape character ++ rest ≠ '"' :: after := by
  intro same
  have read := readEscape character rest
  have bare : readEscaped ('"' :: after) = some ('"', after) := rfl
  rw [same, bare] at read
  cases read
  cases same

theorem tellsQuote (first second : String) :
    Tells (first = second) (quote first) (quote second) := by
  have listed : Tells (List.Forall₂ (· = ·) first.toList second.toList)
      (first.toList.flatMap escape ++ ['"']) (second.toList.flatMap escape ++ ['"']) :=
    tellsList (fun one _ other _ => tellsEscape one other) escapeStarts escapeStarts
  apply (tellsAppend (tellsSame ['"']) fun _ => listed).imp
  rintro ⟨-, equal⟩
  rw [List.forall₂_eq_eq_eq] at equal
  exact String.toList_inj.mp equal

end ExprTree.Text
