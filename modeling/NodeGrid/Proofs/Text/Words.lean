import Mathlib.Data.List.TakeWhile
import NodeGrid.Text.Blank

/-!
# The words of a text

A class of characters divides a text into words, the maximal runs of characters of the class, and
what stands between them.  Reading a text from the left takes its words one by one: passing over
characters outside the class loses no word, and what is taken up to the first such character is the
next word.
-/

namespace NodeGrid.Text

variable {accept : Char → Bool}

/-- The maximal runs of characters of a class. -/
def words (accept : Char → Bool) (text : List Char) : List (List Char) :=
  (text.splitOnP fun char => !accept char).filter (· ≠ [])

@[simp] theorem words_nil : words accept [] = [] := by
  simp [words, List.splitOnP_nil]

theorem words_cons_of_not {char : Char} (outside : accept char = false) (rest : List Char) :
    words accept (char :: rest) = words accept rest := by
  simp [words, List.splitOnP_cons_eq_if_modifyHead, outside]

theorem words_append_of_not {before : List Char} (outside : ∀ char ∈ before, accept char = false)
    (rest : List Char) : words accept (before ++ rest) = words accept rest := by
  induction before with
  | nil => rfl
  | cons char before ih =>
      obtain ⟨first, others⟩ := List.forall_mem_cons.1 outside
      rw [List.cons_append, words_cons_of_not first, ih others]

/-- Passing over characters outside the class loses no word. -/
theorem words_dropWhile {skip : Char → Bool} (outside : ∀ char, skip char → accept char = false)
    (text : List Char) : words accept (text.dropWhile skip) = words accept text := by
  induction text with
  | nil => rfl
  | cons char rest ih =>
      by_cases skipped : skip char
      · rw [List.dropWhile_cons_of_pos skipped, ih, words_cons_of_not (outside char skipped)]
      · rw [List.dropWhile_cons_of_neg skipped]

/-! ## Runs -/

theorem takeWhile_append_run {word rest : List Char} (inside : ∀ char ∈ word, accept char)
    (ends : ∀ char ∈ rest.head?, accept char = false) :
    (word ++ rest).takeWhile accept = word := by
  rw [List.takeWhile_append_of_pos inside]
  cases rest with
  | nil => simp
  | cons mark after => rw [List.takeWhile_cons_of_neg (by simp [ends mark rfl]), List.append_nil]

theorem dropWhile_append_run {word rest : List Char} (inside : ∀ char ∈ word, accept char)
    (ends : ∀ char ∈ rest.head?, accept char = false) :
    (word ++ rest).dropWhile accept = rest := by
  rw [List.dropWhile_append_of_pos inside]
  cases rest with
  | nil => rfl
  | cons mark after => rw [List.dropWhile_cons_of_neg (by simp [ends mark rfl])]

/-- A run of characters of the class that ends where the text or the class ends is a word. -/
theorem words_append {word rest : List Char} (inside : ∀ char ∈ word, accept char)
    (filled : word ≠ []) (ends : ∀ char ∈ rest.head?, accept char = false) :
    words accept (word ++ rest) = word :: words accept rest := by
  have unsplit : ∀ char ∈ word, (!accept char) = false := by simpa using inside
  cases rest with
  | nil => simp [words, List.splitOnP_eq_singleton unsplit, List.splitOnP_nil, filled]
  | cons mark after =>
      have outside : accept mark = false := ends mark rfl
      rw [words_cons_of_not outside]
      simp [words, List.splitOnP_append_cons_of_forall_mem unsplit mark (by simp [outside]),
        filled]

/-- What is taken up to the first character outside the class comes first among the words. -/
theorem words_takeWhile (text : List Char) :
    words accept text =
      [text.takeWhile accept].filter (· ≠ []) ++ words accept (text.dropWhile accept) := by
  have ends : ∀ char ∈ (text.dropWhile accept).head?, accept char = false := by
    intro char first
    have stops := List.head?_dropWhile_not accept text
    rw [Option.mem_def.1 first] at stops
    simpa using stops
  have whole := List.takeWhile_append_dropWhile (p := accept) (l := text)
  by_cases empty : text.takeWhile accept = []
  · rw [empty, List.nil_append] at whole
    simp [empty, whole]
  · have split := words_append (fun _ => List.mem_takeWhile_imp) empty ends
    rw [whole] at split
    simp [empty, split]

/-- A text has no words exactly when none of its characters is of the class. -/
theorem words_eq_nil_iff {text : List Char} :
    words accept text = [] ↔ ∀ char ∈ text, accept char = false := by
  induction text with
  | nil => simp
  | cons char rest ih =>
      cases class_ : accept char with
      | false => simp [words_cons_of_not class_, ih, class_]
      | true =>
          rw [words_takeWhile, List.takeWhile_cons_of_pos class_]
          simp [class_]

/-! ## Marks -/

/-- A text that does not hold a mark is passed over whole on the way to the mark. -/
theorem ne_of_notMem {mark : Char} {text : List Char} (absent : mark ∉ text) :
    ∀ char ∈ text, decide (char ≠ mark) = true := by
  intro char member
  refine decide_eq_true ?_
  rintro rfl
  exact absent member

/-- White space is passed over whole on the way to a mark that can be seen. -/
theorem ne_of_isBlank {mark : Char} (visible : isBlank mark = false) {blanks : List Char}
    (blank : ∀ char ∈ blanks, isBlank char) : ∀ char ∈ blanks, decide (char ≠ mark) = true := by
  refine ne_of_notMem fun member => ?_
  rw [blank mark member] at visible
  cases visible

/-! ## White space at the end -/

@[simp] theorem trimEnd_nil : trimEnd [] = [] := rfl

/-- White space at the end is trimmed. -/
theorem trimEnd_append {blanks : List Char} (blank : ∀ char ∈ blanks, isBlank char)
    (text : List Char) : trimEnd (text ++ blanks) = trimEnd text := by
  rw [trimEnd, trimEnd, List.reverse_append,
    List.dropWhile_append_of_pos fun char mem => blank char (List.mem_reverse.1 mem)]

/-- Nothing is trimmed behind another character. -/
theorem trimEnd_concat (text : List Char) {char : Char} (other : isBlank char = false) :
    trimEnd (text ++ [char]) = text ++ [char] := by
  simp [trimEnd, other]

theorem trimEnd_eq_nil_iff {text : List Char} :
    trimEnd text = [] ↔ ∀ char ∈ text, isBlank char := by
  simp [trimEnd, List.dropWhile_eq_nil_iff]

end NodeGrid.Text
