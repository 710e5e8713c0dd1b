import FirmwareGateway.Text.Line

namespace FirmwareGateway
namespace Text

/-!
# The words of a line

`Spells` puts a line together: white space and a word, and behind it nothing more of the word.
Every line is put together from some words in exactly one way, and these are the words that
reading finds in it.  So of the white space between words nothing matters but that it is there.
-/

/-- A word has a character, and none of its characters is white space. -/
structure IsWord (word : List Char) : Prop where
  nonempty : word ≠ []
  solid : ∀ c ∈ word, isBlank c = false

theorem isWord_iff {word : List Char} :
    IsWord word ↔ (!word.isEmpty && word.all fun c => !isBlank c) = true := by
  rw [Bool.and_eq_true, Bool.not_eq_true', List.isEmpty_eq_false_iff, List.all_eq_true]
  simp only [Bool.not_eq_true']
  exact ⟨fun isWord => ⟨isWord.nonempty, isWord.solid⟩, fun both => ⟨both.1, both.2⟩⟩

instance (word : List Char) : Decidable (IsWord word) :=
  decidable_of_iff' _ isWord_iff

theorem isBlank_of_graphic {c : Char} (first : 0x20 < c.toNat) (last : c.toNat < 0x7f) :
    isBlank c = false := by
  simp only [isBlank, Bool.or_eq_false_iff, Bool.and_eq_false_iff, beq_eq_false_iff_ne,
    decide_eq_false_iff_not]
  omega

/-- What follows a word is nothing or has white space in front. -/
def Apart (rest : List Char) : Prop :=
  ∀ c later, rest = c :: later → isBlank c = true

theorem apart_nil : Apart [] :=
  nofun

theorem apart_cons {c : Char} (blank : isBlank c = true) (rest : List Char) :
    Apart (c :: rest) := by
  rintro d later ⟨⟩
  exact blank

/-- Words put together to a line, with white space before, behind and between them. -/
inductive Spells : List (List Char) → List Char → Prop
  | blank {gap : List Char} (blank : ∀ c ∈ gap, isBlank c = true) : Spells [] gap
  | word {gap word rest : List Char} {words : List (List Char)}
      (blank : ∀ c ∈ gap, isBlank c = true) (isWord : IsWord word) (apart : Apart rest)
      (spells : Spells words rest) : Spells (word :: words) (gap ++ word ++ rest)

/-! ## Reading past white space and past a word -/

theorem wordsFrom_blank {gap : List Char} (blank : ∀ c ∈ gap, isBlank c = true)
    (rest : List Char) : wordsFrom [] (gap ++ rest) = wordsFrom [] rest := by
  induction gap with
  | nil => rfl
  | cons c gap ih =>
    rw [List.cons_append, wordsFrom, if_pos (blank c List.mem_cons_self)]
    exact ih fun d member => blank d (List.mem_cons_of_mem c member)

theorem wordsFrom_solid {word : List Char} (solid : ∀ c ∈ word, isBlank c = false)
    (before rest : List Char) :
    wordsFrom before (word ++ rest) = wordsFrom (word.reverse ++ before) rest := by
  induction word generalizing before with
  | nil => rfl
  | cons c word ih =>
    have first : ¬ isBlank c = true := Bool.not_eq_true _ ▸ solid c List.mem_cons_self
    rw [List.cons_append, wordsFrom, if_neg first,
      ih fun d member => solid d (List.mem_cons_of_mem c member), List.reverse_cons,
      List.append_assoc, List.singleton_append]

/-- Reading ends a word where white space or nothing follows it. -/
theorem wordsFrom_apart {before rest : List Char} (nonempty : before ≠ []) (apart : Apart rest) :
    wordsFrom before rest = before.reverse :: wordsFrom [] rest := by
  have begun : ¬ before.isEmpty = true := mt List.isEmpty_iff.mp nonempty
  cases rest with
  | nil =>
    rw [wordsFrom, if_neg begun]
    rfl
  | cons c rest =>
    have first : isBlank c = true := apart c rest rfl
    rw [wordsFrom, if_pos first, if_neg begun, wordsFrom, if_pos first]
    rfl

/-! ## Words and lines -/

theorem words_of_spells {words : List (List Char)} {line : List Char}
    (spells : Spells words line) : Text.words line = words := by
  induction spells with
  | @blank gap blank =>
    have read := wordsFrom_blank blank []
    rw [List.append_nil] at read
    exact read
  | @word gap word rest words blank isWord apart spells ih =>
    have begun : word.reverse ≠ [] := mt List.reverse_eq_nil_iff.mp isWord.nonempty
    calc Text.words (gap ++ word ++ rest)
        = wordsFrom [] (word ++ rest) := by
          rw [Text.words, List.append_assoc, wordsFrom_blank blank]
      _ = wordsFrom word.reverse rest := by
          rw [wordsFrom_solid isWord.solid, List.append_nil]
      _ = word :: Text.words rest := by
          rw [wordsFrom_apart begun apart, List.reverse_reverse]
          rfl
      _ = word :: words := by rw [ih]

theorem Spells.behind_blank {words : List (List Char)} {line : List Char} {c : Char}
    (spells : Spells words line) (first : isBlank c = true) : Spells words (c :: line) := by
  cases spells with
  | blank blank => exact .blank (List.forall_mem_cons.mpr ⟨first, blank⟩)
  | word blank isWord apart spells =>
    exact .word (List.forall_mem_cons.mpr ⟨first, blank⟩) isWord apart spells

theorem Spells.in_front {words : List (List Char)} {word rest : List Char}
    (spells : Spells words rest) (isWord : IsWord word) (apart : Apart rest) :
    Spells (word :: words) (word ++ rest) :=
  @Spells.word [] word rest words (List.forall_mem_nil _) isWord apart spells

/-- Nothing is left out in reading: the word that was begun, which ends at white space or at
the end of the line, and what is read after it, make up the line. -/
theorem spells_wordsFrom (line : List Char) {before : List Char}
    (solid : ∀ c ∈ before, isBlank c = false) :
    Spells (wordsFrom before line) (before.reverse ++ line) := by
  have isWord : ∀ before : List Char, before ≠ [] → (∀ c ∈ before, isBlank c = false) →
      IsWord before.reverse := fun before nonempty solid =>
    ⟨mt List.reverse_eq_nil_iff.mp nonempty, fun c member => solid c (List.mem_reverse.mp member)⟩
  induction line generalizing before with
  | nil =>
    by_cases begun : before = []
    · rw [begun]
      exact .blank (List.forall_mem_nil _)
    · rw [wordsFrom_apart begun apart_nil]
      exact (Spells.blank (List.forall_mem_nil _)).in_front (isWord before begun solid) apart_nil
  | cons c line ih =>
    by_cases first : isBlank c = true
    · have later : Spells (wordsFrom [] line) (c :: line) :=
        (ih (List.forall_mem_nil _)).behind_blank first
      by_cases begun : before = []
      · rw [begun, wordsFrom, if_pos first]
        exact later
      · have apart : Apart (c :: line) := apart_cons first line
        rw [wordsFrom_apart begun apart, wordsFrom, if_pos first]
        exact later.in_front (isWord before begun solid) apart
    · have read := ih (List.forall_mem_cons.mpr ⟨Bool.not_eq_true _ ▸ first, solid⟩)
      rw [List.reverse_cons, List.append_assoc] at read
      rw [wordsFrom, if_neg first]
      exact read

/-- Reading finds the words of which a line is put together, and only these. -/
theorem words_eq_iff_spells {words : List (List Char)} {line : List Char} :
    Text.words line = words ↔ Spells words line := by
  constructor
  · rintro rfl
    exact spells_wordsFrom line (List.forall_mem_nil _)
  · exact words_of_spells

/-- Words can be put together to a line, with any white space between them. -/
theorem spells_spaced {space : Char} (blank : isBlank space = true) {words : List (List Char)}
    (isWord : ∀ word ∈ words, IsWord word) : Spells words (words.flatMap (space :: ·)) := by
  induction words with
  | nil => exact .blank (List.forall_mem_nil _)
  | cons word words ih =>
    have later := ih fun other member => isWord other (List.mem_cons_of_mem word member)
    have apart : Apart (words.flatMap (space :: ·)) := by
      cases words with
      | nil => exact apart_nil
      | cons next words => exact apart_cons blank _
    exact (later.in_front (isWord word List.mem_cons_self) apart).behind_blank blank

end Text
end FirmwareGateway
