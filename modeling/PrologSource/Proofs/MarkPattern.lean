import PrologSource.Proofs.MarkLine
import PrologSource.Proofs.Pattern

namespace PrologSource
namespace MarkFields
variable {before cs : List Char}

def namePattern : Pattern := [.few (· ≠ '\n'), .word "-", .oneOrMore isDigit]

def numbersPattern : Pattern :=
  .word " (" :: .oneOrMore isDigit :: .word "-" :: .oneOrMore isDigit :: .word ") " :: namePattern

def filePattern : Pattern := .many (· ≠ '\n') :: numbersPattern

/-- Spaces, the word `In`, and then the parts of a mark. -/
def pattern : Pattern := .upTo 9 (· = ' ') :: .word "In " :: filePattern

def numbersParts (f : MarkFields) : List (List Char) :=
  [[' ', '('], f.first, ['-'], f.last, [')', ' '], f.name, ['-'], f.occurrence]

def parts (f : MarkFields) : List (List Char) := ['I', 'n', ' '] :: f.file :: f.numbersParts

theorem parts_injective {f g : MarkFields} (h : f.parts = g.parts) : f = g := by
  obtain ⟨file, first, last, name, occurrence⟩ := f
  obtain ⟨file', first', last', name', occurrence'⟩ := g
  simpa [parts, numbersParts] using h

theorem take?_namePattern : namePattern.take? before cs =
    (name? cs).map fun found => [found.1, ['-'], found.2] := by
  induction cs generalizing before with
  | nil =>
    rw [namePattern, Pattern.take?_few_nil, Pattern.take?_word_eq_none (by simp)]
    rfl
  | cons c cs ih =>
    have here : Pattern.take? [.word "-", .oneOrMore isDigit] before (c :: cs) =
        if c = '-' ∧ cs.takeWhile isDigit ≠ [] then some [['-'], cs.takeWhile isDigit]
        else none := by
      by_cases dash : c = '-'
      · subst dash
        change Pattern.take? _ before ("-".toList ++ cs) = _
        rw [Pattern.take?_word_append, Pattern.take?_oneOrMore_last]
        by_cases digits : cs.takeWhile isDigit = [] <;> simp [digits]
      · rw [Pattern.take?_word_eq_none (by simpa using Ne.symm dash), if_neg (by simp [dash])]
    rw [namePattern, Pattern.take?_few_cons, here, name?]
    split
    · rfl
    · rw [Option.map_none, Option.none_or]
      by_cases newline : c = '\n'
      · simp [newline]
      · rw [if_pos (by simpa using newline), if_neg newline, ← namePattern, ih, Option.map_map,
          Option.map_map]
        rfl

/-- A run of digits goes as far as it can, where something else must stand behind it. -/
theorem take?_digits {w : String} {p : Pattern} (h : w.toList.head?.any (!isDigit ·)) :
    Pattern.take? (.oneOrMore isDigit :: .word w :: p) before cs =
      (digits? cs).bind fun found =>
        (Pattern.take? (.word w :: p) (before ++ found.1) found.2).map (found.1 :: ·) := by
  have stop : ∀ u d v, isDigit d → Pattern.take? (.word w :: p) u (d :: v) = none := by
    intro u d v digit
    apply Pattern.take?_word_eq_none
    intro front
    cases spelled : w.toList with
    | nil => simp [spelled] at h
    | cons e tail =>
      rw [spelled, List.cons_prefix_cons] at front
      simp [spelled, front.1, digit] at h
  rw [PatternStep.oneOrMore, Pattern.take?_run_whole stop, digits?]
  by_cases none : cs.takeWhile isDigit = []
  · simp [none]
  · have some : 1 ≤ (cs.takeWhile isDigit).length := List.length_pos_iff.2 none
    simp [none, some]

theorem take?_numbersPattern : numbersPattern.take? before cs =
    (afterFile? cs).map numbersParts := by
  rw [numbersPattern, Pattern.take?_word]
  simp only [take?_digits (w := "-") (by decide), take?_digits (w := ") ") (by decide),
    Pattern.take?_word, take?_namePattern, afterFile?, digitRange?, Option.bind_eq_bind,
    Option.bind_assoc, Option.map_eq_bind, Option.bind_some, Function.comp_def, pure]
  rfl

/-- The longest file that fits is found by trying longer ones first. -/
theorem take?_filePattern : filePattern.take? before cs =
    (file? cs).map fun f => f.file :: f.numbersParts := by
  have here (before cs : List Char) : (numbersPattern.take? before cs).map ([] :: ·) =
      (afterFile? cs).map fun f => f.file :: f.numbersParts := by
    rw [take?_numbersPattern, Option.map_map]
    apply Option.map_congr
    intro f found
    rw [(of_afterFile? found).1]
    rfl
  induction cs generalizing before with
  | nil =>
    rw [filePattern, Pattern.take?_many_nil, here]
    rfl
  | cons c cs ih =>
    rw [filePattern, Pattern.take?_many_cons, ← filePattern, ih, here, file?]
    by_cases newline : c = '\n'
    · simp [newline]
    · rw [if_pos (by simpa using newline), if_neg newline]
      cases file? cs <;> rfl

theorem take?_inPattern : Pattern.take? (.word "In " :: filePattern) before cs =
    ((['I', 'n', ' '].isPrefixOf? cs).bind file?).map parts := by
  rw [Pattern.take?_word]
  simp only [take?_filePattern, Option.map_bind, Option.map_map]
  rfl

theorem take?_pattern : pattern.take? before cs =
    if (cs.takeWhile (· = ' ')).length ≤ 9 then
      ((['I', 'n', ' '].isPrefixOf? (cs.dropWhile (· = ' '))).bind file?).map
        fun f => cs.takeWhile (· = ' ') :: f.parts
    else none := by
  have stop : ∀ u d v, decide (d = ' ') →
      Pattern.take? (.word "In " :: filePattern) u (d :: v) = none := by
    intro u d v space
    apply Pattern.take?_word_eq_none
    simp [of_decide_eq_true space]
  rw [pattern, PatternStep.upTo, Pattern.take?_run_whole stop, take?_inPattern, Option.map_map]
  simp [Function.comp_def]

theorem find?_of_front {f : MarkFields}
    (h : (['I', 'n', ' '].isPrefixOf? cs).bind file? = some f) : find? cs = some f := by
  cases cs with
  | nil => cases h
  | cons c cs => rw [find?, h]

/-- No mark begins at a space. -/
theorem find?_dropWhile (cs : List Char) : find? (cs.dropWhile (· = ' ')) = find? cs := by
  induction cs with
  | nil => rfl
  | cons c cs ih =>
    by_cases space : c = ' '
    · subst space
      rw [List.dropWhile_cons_of_pos (by decide), ih, find?_cons (by decide)]
    · rw [List.dropWhile_cons_of_neg (by simpa using space)]

/-- A mark is read where its pattern is found, with what the pattern takes for its parts. -/
theorem search?_pattern : (pattern.search? before cs).map (fun found => found.parts.tail) =
    (find? cs).map parts := by
  induction cs generalizing before with
  | nil =>
    rw [Pattern.search?, take?_pattern]
    rfl
  | cons c cs ih =>
    cases fits : pattern.take? before (c :: cs) with
    | some taken =>
      rw [Pattern.search?, fits]
      rw [take?_pattern] at fits
      split at fits
      · obtain ⟨f, found, rfl⟩ := Option.map_eq_some_iff.1 fits
        rw [← find?_dropWhile, find?_of_front found]
        rfl
      · cases fits
    | none =>
      rw [Pattern.search?_cons fits, ih]
      by_cases space : c = ' '
      · rw [space, find?_cons (by decide)]
      · rw [take?_pattern, List.takeWhile_cons_of_neg (by simpa using space),
          List.dropWhile_cons_of_neg (by simpa using space), if_pos (by decide),
          Option.map_eq_none_iff] at fits
        rw [find?, fits]

end MarkFields
end PrologSource
