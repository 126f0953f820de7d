/-
This file gives the grammar of literals and shows that exactly its texts are accepted.
-/

import ExprTree.Assembly.Builder
import ExprTree.Proofs.Literal.Reading
import ExprTree.Proofs.Text.Trim

namespace ExprTree

namespace Text

theorem codeToLower (character : Char) : character.toLower.toNat =
    if 65 ≤ character.toNat ∧ character.toNat ≤ 90 then character.toNat + 32
    else character.toNat := by
  have capital : (character.val ≥ 'A'.val ∧ character.val ≤ 'Z'.val) ↔
      65 ≤ character.toNat ∧ character.toNat ≤ 90 := by
    rw [ge_iff_le, UInt32.le_iff_toNat_le, UInt32.le_iff_toNat_le]
    rfl
  have sum : (character.val + ('a'.val - 'A'.val)).toNat = (character.toNat + 32) % 2 ^ 32 :=
    UInt32.toNat_add _ _
  unfold Char.toLower
  split <;> rename_i range <;> rw [capital] at range
  · rw [if_pos range]
    exact sum.trans (Nat.mod_eq_of_lt (by omega))
  · rw [if_neg range]

theorem lowerRange (letter : Char) (lower : letter.isLower = true) :
    'a'.val ≤ letter.val ∧ letter.val ≤ 'z'.val := by
  unfold Char.isLower at lower
  simpa only [Bool.and_eq_true, decide_eq_true_eq, ge_iff_le] using lower

theorem codeToUpper (letter : Char) (lower : letter.isLower = true) :
    letter.toUpper.toNat + 32 = letter.toNat := by
  have bound := letter.val.toNat_lt
  have sum : (letter.val + ('A'.val - 'a'.val)).toNat = (letter.toNat + (2 ^ 32 - 32)) % 2 ^ 32 :=
    UInt32.toNat_add _ _
  have range := lowerRange letter lower
  have low : 97 ≤ letter.toNat := UInt32.le_iff_toNat_le.mp range.1
  unfold Char.toUpper
  rw [dif_pos range]
  change (letter.val + ('A'.val - 'a'.val)).toNat + 32 = letter.toNat
  rw [sum]
  unfold Char.toNat at *
  omega

/-- Two characters have a small letter for their lower case: the letter itself and its capital. -/
theorem lowerLetter (letter : Char) (lower : letter.isLower = true) (written : Char) :
    written.toLower = letter ↔ written = letter ∨ written = letter.toUpper := by
  have capital := codeToUpper letter lower
  have range := lowerRange letter lower
  have first : 97 ≤ letter.toNat := UInt32.le_iff_toNat_le.mp range.1
  have last : letter.toNat ≤ 122 := UInt32.le_iff_toNat_le.mp range.2
  rw [← Char.toNat_inj, ← Char.toNat_inj, ← Char.toNat_inj, codeToLower]
  split <;> omega

end Text

namespace Literal

/-- These words are literals, each of their letters small or capital. -/
def words : List (List Char) := ["inf".toList, "infinity".toList, "nan".toList]

def Spells (text word : List Char) : Prop :=
  List.Forall₂ (fun written letter => written = letter ∨ written = letter.toUpper) text word

/-- The grammar of literals has numerals, and it has words with an optional sign. -/
inductive Grammatical : List Char → Prop
  | numeral (numeral : Numeral) : Grammatical numeral.text
  | word (sign : Mark) {text word : List Char} (known : word ∈ words) (spells : Spells text word) :
      Grammatical (sign.text ++ text)

theorem wordsLower : ∀ word ∈ words, ∀ letter ∈ word, letter.isLower = true := by
  have lower : words.all (·.all Char.isLower) = true := by decide
  intro word known
  exact List.all_eq_true.mp (List.all_eq_true.mp lower word known)

theorem spellsLower (text word : List Char) (lower : ∀ letter ∈ word, letter.isLower = true) :
    Spells text word ↔ text.map Char.toLower = word := by
  unfold Spells
  induction text generalizing word with
  | nil => rw [List.forall₂_nil_left_iff, List.map_nil, eq_comm]
  | cons written text ih =>
      rw [List.forall₂_cons_left_iff, List.map_cons]
      constructor
      · rintro ⟨letter, rest, same, spells, rfl⟩
        rw [(Text.lowerLetter letter (lower letter List.mem_cons_self) written).mpr same,
          (ih rest fun other later => lower other (List.mem_cons_of_mem letter later)).mp spells]
      · rintro rfl
        exact ⟨written.toLower, text.map Char.toLower,
          (Text.lowerLetter _ (lower _ List.mem_cons_self) written).mp rfl,
          (ih _ fun other later => lower other (List.mem_cons_of_mem _ later)).mpr rfl, rfl⟩

/-- No word is spelled with a sign in front. -/
theorem bareSpelled {text word : List Char} (known : word ∈ words) (spells : Spells text word) :
    ∀ first ∈ text.head?, first ≠ '-' ∧ first ≠ '+' := by
  intro first starts
  cases spells with
  | nil => cases starts
  | @cons written letter rest letters same _ =>
      cases starts
      have lower := wordsLower _ known letter List.mem_cons_self
      rw [← (Text.lowerLetter letter lower first).mpr same] at lower
      constructor <;> rintro rfl <;> exact absurd lower (by decide)

theorem readSpelled (sign : Mark) {text word : List Char} (known : word ∈ words)
    (spells : Spells text word) :
    read? (sign.text ++ text) =
      some (if word = "nan".toList then .notANumber else .infinite (decide (sign = .minus))) := by
  have lower := (spellsLower text word (wordsLower word known)).mp spells
  rw [read?, splitSignBare sign text (bareSpelled known spells)]
  simp only [lower]
  simp only [words, List.mem_cons, List.not_mem_nil, or_false] at known
  rcases known with rfl | rfl | rfl <;> rfl

theorem ofLower {text : List Char} {word : String} (known : word.toList ∈ words)
    (same : String.ofList (text.map Char.toLower) = word) : Spells text word.toList := by
  rw [spellsLower text _ (wordsLower _ known), ← same, String.toList_ofList]

/-- The reader accepts the texts of the grammar and no other. -/
theorem readGrammatical (text : List Char) : (read? text).isSome = true ↔ Grammatical text := by
  constructor
  · intro accepted
    obtain ⟨sign, parts, _⟩ := ofSplitSign text
    unfold read? at accepted
    simp only at accepted
    split at accepted
    case isTrue infinite =>
      rw [parts]
      rcases infinite with short | full
      · exact .word sign (by decide) (ofLower (by decide) short)
      · exact .word sign (by decide) (ofLower (by decide) full)
    case isFalse =>
      split at accepted
      case isTrue nan =>
        rw [parts]
        exact .word sign (by decide) (ofLower (by decide) nan)
      case isFalse =>
        rw [Option.isSome_map, Option.isSome_iff_exists] at accepted
        obtain ⟨decimal, unsigned⟩ := accepted
        obtain ⟨numeral, signed, written⟩ := ofReadDecimal sign _ decimal unsigned
        rw [parts, ← signed, ← written]
        exact .numeral numeral
  · rintro (numeral | ⟨sign, known, spells⟩)
    · rw [readText]
      rfl
    · rw [readSpelled sign known spells]
      rfl

end Literal

/-- The outcome for a text depends on its core, and the error keeps the text itself. -/
theorem readNumberCore (text : String) (core : List Char) (found : Text.Core text.toList core) :
    (readNumber text).outcome =
      match Literal.read? core with
      | some literal => .ok literal.value
      | none => .error (.rejectedLiteral text (if core = [] then .empty else .invalid)) := by
  rw [Text.coreIff] at found
  rw [readNumber, Literal.read, Literal.readTrimmed, found]
  cases Literal.read? (Text.trim text.toList) with
  | none => rfl
  | some literal => rfl

/--
A text is accepted exactly when its core is derived by the grammar.
A rejected text is kept whole in the error, and only an empty core is at fault for being empty.
Blanks around a text change neither the outcome nor the fault.
-/
theorem literalsAreGrammatical (text : String) :
    ∃ core, (∀ other, Text.Core text.toList other ↔ other = core) ∧
      ((∃ value, (readNumber text).outcome = .ok value) ↔ Literal.Grammatical core) ∧
      (∀ error, (readNumber text).outcome = .error error ↔
        ¬Literal.Grammatical core ∧
          error = .rejectedLiteral text (if core = [] then .empty else .invalid)) ∧
      ∀ before after, Text.Blanks before → Text.Blanks after →
        (readNumber (String.ofList (before ++ text.toList ++ after))).outcome.mapError
            AssemblyError.fault? =
          (readNumber text).outcome.mapError AssemblyError.fault? := by
  have core := Text.coreTrim text.toList
  have outcome := readNumberCore text _ core
  refine ⟨Text.trim text.toList, Text.coreIff text.toList, ?_, ?_, ?_⟩
  · rw [← Literal.readGrammatical, outcome]
    cases Literal.read? (Text.trim text.toList) with
    | none => exact iff_of_false nofun nofun
    | some literal => exact iff_of_true ⟨_, rfl⟩ rfl
  · intro error
    rw [← Literal.readGrammatical, outcome]
    cases Literal.read? (Text.trim text.toList) with
    | none =>
        constructor
        · rintro ⟨⟩
          exact ⟨nofun, rfl⟩
        · rintro ⟨_, rfl⟩
          rfl
    | some literal => exact iff_of_false nofun fun refused => refused.1 rfl
  · intro before after blanksBefore blanksAfter
    have padded : Text.Core (String.ofList (before ++ text.toList ++ after)).toList
        (Text.trim text.toList) := by
      rw [String.toList_ofList, Text.coreIff, Text.trimPadded blanksBefore blanksAfter]
    rw [readNumberCore _ _ padded, outcome]
    cases Literal.read? (Text.trim text.toList) with
    | none => rfl
    | some literal => rfl

/-- Signed infinity is accepted in any case of its letters and between blanks outside ASCII. -/
theorem literalsAreGrammaticalInfinity :
    Text.Blanks ['\u3000', '\u0085'] ∧ Text.Blanks ['\u2028'] ∧
      (readNumber "\u3000\u0085-InFinity\u2028").outcome.mapError AssemblyError.fault? =
        (readNumber "-InFinity").outcome.mapError AssemblyError.fault? ∧
      ∃ value, (readNumber "-InFinity").outcome = .ok value := by
  have before : Text.Blanks ['\u3000', '\u0085'] := by decide
  have after : Text.Blanks ['\u2028'] := by decide
  obtain ⟨core, unique, accepted, _, padded⟩ := literalsAreGrammatical "-InFinity"
  have whole : "-InFinity".toList = core := by
    rw [← unique, Text.coreIff]
    decide
  have known : "infinity".toList ∈ Literal.words := by decide
  have spelled : Literal.Grammatical (Mark.minus.text ++ "InFinity".toList) :=
    .word .minus known (Literal.ofLower known (by decide +kernel))
  have text : String.ofList (['\u3000', '\u0085'] ++ "-InFinity".toList ++ ['\u2028']) =
      "\u3000\u0085-InFinity\u2028" := by decide +kernel
  refine ⟨before, after, ?_, accepted.mpr (whole ▸ spelled)⟩
  rw [← text]
  exact padded _ _ before after

end ExprTree
