import Mathlib.Data.List.Infix
import PrologSource.Mark
import PrologSource.Proofs.Decimals
import PrologSource.Proofs.NumberForm

namespace PrologSource

section words
variable {c : Char} {word u w : List Char}

/-- A word begins behind a text that does not hold its first character. -/
theorem infix_of_infix_append (h : c ∉ u) (within : c :: word <:+: u ++ w) :
    c :: word <:+: w := by
  induction u with
  | nil => exact within
  | cons d u ih =>
    rw [List.mem_cons, not_or] at h
    rw [List.cons_append, List.infix_cons_iff, List.cons_prefix_cons] at within
    rcases within with ⟨same, -⟩ | behind
    · exact absurd same h.1
    · exact ih h.2 behind

/-- A word ends before a text that does not hold its last character. -/
theorem infix_of_infix_append_right (h : c ∉ w) (within : word ++ [c] <:+: u ++ w) :
    word ++ [c] <:+: u := by
  rw [← List.reverse_infix] at within ⊢
  simp only [List.reverse_append, List.reverse_singleton, List.singleton_append] at within ⊢
  exact infix_of_infix_append (mt List.mem_reverse.1 h) within

end words

namespace MarkFields
variable {f : MarkFields} {c : Char} {cs rest first last name digits : List Char}

theorem spelling_eq (f : MarkFields) :
    f.spelling = f.file ++ (lineNumbers f.first f.last ++ (f.name ++ '-' :: f.occurrence)) := by
  simp only [spelling, lineNumbers, List.append_assoc, List.cons_append, List.nil_append]

/-! The name and what stands before it. -/

/-- A name goes up to the first dash with a digit behind it. -/
theorem name?_append (line : '\n' ∉ name) (dash : ∀ d, isDigit d → ¬ ['-', d] <:+: name)
    (hd : IsDecimal digits) (stop : ¬ rest.head?.any isDigit) :
    name? (name ++ '-' :: (digits ++ rest)) = some (name, digits) := by
  induction name with
  | nil =>
    have run := (takeWhile_run hd.2 stop).1
    rw [List.nil_append, name?, run, if_pos ⟨rfl, hd.1⟩]
  | cons c name ih =>
    rw [List.mem_cons, not_or] at line
    have goes : ¬ (c = '-' ∧ (name ++ '-' :: (digits ++ rest)).takeWhile isDigit ≠ []) := by
      rintro ⟨rfl, some⟩
      cases name with
      | nil => exact some rfl
      | cons d name =>
        have digit : isDigit d := by
          by_contra other
          exact some (List.takeWhile_cons_of_neg other)
        exact dash d digit (List.IsPrefix.isInfix ⟨name, rfl⟩)
    have found := ih line.2 fun d hd within =>
      dash d hd (within.trans (List.infix_cons List.infix_rfl))
    rw [List.cons_append, name?, if_neg goes, if_neg (Ne.symm line.1), found]
    rfl

theorem afterFile?_append (hf : IsDecimal first) (hl : IsDecimal last)
    (found : name? rest = some (name, digits)) :
    afterFile? (lineNumbers first last ++ rest) = some ⟨[], first, last, name, digits⟩ := by
  have front : [' ', '('].isPrefixOf? (lineNumbers first last ++ rest) =
      some (first ++ '-' :: (last ++ ')' :: ' ' :: rest)) := by
    rw [List.isPrefixOf?_eq_some_iff_append_eq]
    simp only [lineNumbers, List.append_assoc, List.cons_append, List.nil_append]
  have range : digitRange? (first ++ '-' :: (last ++ ')' :: ' ' :: rest)) =
      some ((first, last), ')' :: ' ' :: rest) := digitRange?_append hf hl Bool.false_ne_true
  have close : [')', ' '].isPrefixOf? (')' :: ' ' :: rest) = some rest :=
    List.isPrefixOf?_eq_some_iff_append_eq.2 rfl
  simp only [afterFile?, front, range, close, found, Option.bind_eq_bind, Option.bind_some]
  rfl

/-- Behind a file there are line numbers and a name. -/
theorem of_afterFile? (h : afterFile? cs = some f) :
    f.file = [] ∧ IsDecimal f.first ∧ IsDecimal f.last ∧
      ∃ rest, cs = lineNumbers f.first f.last ++ rest ∧
        name? rest = some (f.name, f.occurrence) := by
  simp only [afterFile?, Option.bind_eq_bind, Option.bind_eq_some_iff] at h
  obtain ⟨behind, front, ⟨⟨first, last⟩, more⟩, range, rest, close, found, hn, same⟩ := h
  obtain rfl := Option.some.inj same
  obtain ⟨hf, hl, rfl⟩ := of_digitRange? range
  rw [List.isPrefixOf?_eq_some_iff_append_eq] at front close
  refine ⟨rfl, hf, hl, rest, ?_, hn⟩
  rw [← front, ← show [')', ' '] ++ rest = more from close]
  simp only [lineNumbers, List.append_assoc, List.cons_append, List.nil_append]

/-- Nothing fits behind a file where there are no line numbers. -/
theorem afterFile?_eq_none (h : ∀ a b, IsDecimal a → IsDecimal b → ¬ lineNumbers a b <+: cs) :
    afterFile? cs = none := by
  rw [Option.eq_none_iff_forall_ne_some]
  intro f found
  obtain ⟨-, hf, hl, rest, rfl, -⟩ := of_afterFile? found
  exact h _ _ hf hl (List.prefix_append _ rest)

/-! The file. -/

theorem file?_eq_none (h : ∀ v, v <:+ cs → afterFile? v = none) : file? cs = none := by
  induction cs with
  | nil => rfl
  | cons c cs ih =>
    have behind := ih fun v hv => h v (hv.trans (List.suffix_cons c cs))
    rw [file?, behind, ite_self]
    exact h _ List.suffix_rfl

theorem file?_of_afterFile? (found : afterFile? (c :: cs) = some f) (only : file? cs = none) :
    file? (c :: cs) = some f := by
  rw [file?, only, ite_self]
  exact found

/-- A file goes on as far as one that fits behind it. -/
theorem file?_append {file : List Char} (line : '\n' ∉ file) (found : file? cs = some f) :
    file? (file ++ cs) = some { f with file := file ++ f.file } := by
  induction file with
  | nil => exact found
  | cons c file ih =>
    rw [List.mem_cons, not_or] at line
    rw [List.cons_append, file?, if_neg (Ne.symm line.1), ih line.2]
    rfl

/-- Line numbers do not begin within line numbers, except at the space behind them. -/
theorem numbers_infix_of_cons {a b : List Char} (hf : IsDecimal first) (hl : IsDecimal last)
    (hd : IsDecimal digits) (within : lineNumbers a b <:+:
      '(' :: (first ++ '-' :: (last ++ ')' :: ' ' :: (name ++ '-' :: digits)))) :
    lineNumbers a b <:+: ' ' :: name := by
  have blank {cs : List Char} (h : IsDecimal cs) : ' ' ∉ cs := fun mem =>
    absurd (h.2 ' ' mem) (by decide)
  have inside : ' ' ∉ '(' :: (first ++ '-' :: (last ++ [')'])) := by
    simp [blank hf, blank hl]
  have after : ' ' ∉ '-' :: digits := by
    simp [blank hd]
  have behind : lineNumbers a b <:+: (' ' :: name) ++ '-' :: digits := by
    apply infix_of_infix_append inside
    simpa only [lineNumbers, List.append_assoc, List.cons_append, List.nil_append] using within
  have close : lineNumbers a b = (' ' :: '(' :: (a ++ '-' :: (b ++ [')']))) ++ [' '] := by
    simp [lineNumbers]
  rw [close] at behind ⊢
  exact infix_of_infix_append_right after behind

theorem file?_spelling (h : f.IsPlain) : file? f.spelling = some f := by
  have name : name? (f.name ++ '-' :: (f.occurrence ++ [])) = some (f.name, f.occurrence) :=
    name?_append h.name h.dash h.occurrence Bool.false_ne_true
  rw [List.append_nil] at name
  have after := afterFile?_append h.first h.last name
  have only :
      file? (lineNumbers f.first f.last ++ (f.name ++ '-' :: f.occurrence)).tail = none := by
    apply file?_eq_none
    intro v hv
    apply afterFile?_eq_none
    intro a b ha hb front
    have within := front.isInfix.trans hv.isInfix
    apply h.numbers a b ha hb
    apply numbers_infix_of_cons h.first h.last h.occurrence
    simpa [lineNumbers] using within
  have last : file? (lineNumbers f.first f.last ++ (f.name ++ '-' :: f.occurrence)) =
      some ⟨[], f.first, f.last, f.name, f.occurrence⟩ := file?_of_afterFile? after only
  rw [spelling_eq, file?_append h.file last, List.append_nil]

/-! The mark on a line. -/

theorem find?_cons (h : c ≠ 'I') (cs : List Char) : find? (c :: cs) = find? cs := by
  have front : ['I', 'n', ' '].isPrefixOf? (c :: cs) = none := by
    rw [List.isPrefixOf?, if_neg (by simpa using Ne.symm h)]
  rw [find?, front]
  rfl

/-- What fits the first `In ` is the mark. -/
theorem find?_of_file? (found : file? cs = some f) : find? ("   In ".toList ++ cs) = some f := by
  have front : ['I', 'n', ' '].isPrefixOf? ('I' :: 'n' :: ' ' :: cs) = some cs :=
    List.isPrefixOf?_eq_some_iff_append_eq.2 rfl
  change find? (' ' :: ' ' :: ' ' :: 'I' :: 'n' :: ' ' :: cs) = some f
  rw [find?_cons (by decide), find?_cons (by decide), find?_cons (by decide), find?, front,
    Option.bind_some, found]

end MarkFields

theorem word?_decimal {n : Nat} (h : n < wordBound) : word? (decimal n) = some n := by
  rw [word?, valueIn_decimal, if_pos h]

theorem mountDrive_of_not_drive {path : List Char}
    (h : (path.takeWhile (· ≠ '/')).getLast? ≠ some ':') : mountDrive path = path :=
  if_neg h

namespace Mark

/-- The parts of a mark stand for it, where its file is on no drive and its numbers fit. -/
theorem ofFields?_fields (m : Mark)
    (drive : (m.file.toList.takeWhile (· ≠ '/')).getLast? ≠ some ':')
    (firstLine : m.firstLine + 1 < wordBound) (lastLine : m.lastLine + 1 < wordBound)
    (occurrence : m.occurrence < wordBound) : ofFields? m.fields = some m := by
  simp only [ofFields?, fields, word?_decimal firstLine, word?_decimal lastLine,
    word?_decimal occurrence, mountDrive_of_not_drive drive, String.ofList_toList,
    Nat.add_sub_cancel, Option.bind_eq_bind, Option.bind_some]
  rfl

/-- The line that is printed for a mark is read as that mark, if its name cannot be taken for
something else: with the space before it, it holds no line numbers, and it holds no dash before a
digit. -/
theorem ofLine?_line (m : Mark) (file : '\n' ∉ m.file.toList)
    (drive : (m.file.toList.takeWhile (· ≠ '/')).getLast? ≠ some ':')
    (name : '\n' ∉ m.name.toList)
    (dash : ∀ d, isDigit d → ¬ ['-', d] <:+: m.name.toList)
    (numbers : ∀ a b, IsDecimal a → IsDecimal b →
      ¬ MarkFields.lineNumbers a b <:+: ' ' :: m.name.toList)
    (firstLine : m.firstLine + 1 < wordBound) (lastLine : m.lastLine + 1 < wordBound)
    (occurrence : m.occurrence < wordBound) : ofLine? m.line = some m := by
  have plain : m.fields.IsPlain := ⟨file, isDecimal_decimal (m.firstLine + 1),
    isDecimal_decimal (m.lastLine + 1), name, dash, numbers, isDecimal_decimal m.occurrence⟩
  have found := MarkFields.find?_of_file? (MarkFields.file?_spelling plain)
  have spelled : m.line.toList = "   In ".toList ++ m.fields.spelling := String.toList_ofList
  rw [ofLine?, spelled, found]
  exact ofFields?_fields m drive firstLine lastLine occurrence

/-- A file that holds a whole mark, and a name with a dash, a space and a digit. -/
theorem ofLine?_mark_in_file :
    ofLine? "   In /tmp/In a (1-2) b-3 (4-5) c.pl (6-6) my-p2 x-y-10" =
      some ⟨"/tmp/In a (1-2) b-3 (4-5) c.pl", 5, 5, "my-p2 x-y", 10⟩ := by
  have dash : ∀ d, isDigit d → ¬ ['-', d] <:+: "my-p2 x-y".toList := by
    intro d hd within
    have after : d = 'p' ∨ d = 'y' := by
      simpa [List.infix_cons_iff, List.cons_prefix_cons] using within
    rcases after with rfl | rfl <;> exact absurd hd (by decide)
  have numbers : ∀ a b, IsDecimal a → IsDecimal b →
      ¬ MarkFields.lineNumbers a b <:+: ' ' :: "my-p2 x-y".toList := by
    intro a b _ _ within
    have opens : '(' ∈ MarkFields.lineNumbers a b := List.mem_cons_of_mem ' ' List.mem_cons_self
    exact absurd (within.subset opens) (by decide)
  have read := ofLine?_line ⟨"/tmp/In a (1-2) b-3 (4-5) c.pl", 5, 5, "my-p2 x-y", 10⟩ (by decide)
    (by decide) (by decide) dash numbers (by decide) (by decide) (by decide)
  have printed : line ⟨"/tmp/In a (1-2) b-3 (4-5) c.pl", 5, 5, "my-p2 x-y", 10⟩ =
      "   In /tmp/In a (1-2) b-3 (4-5) c.pl (6-6) my-p2 x-y-10" := by decide
  rw [← printed]
  exact read

/-- Two marks with one line, of which the one with the longer file is read, and a mark whose name
ends with what looks like an occurrence. -/
theorem ofLine?_numbers_in_name :
    let longer : Mark := ⟨"a (1-1) b", 0, 0, "c", 1⟩
    let shorter : Mark := ⟨"a", 0, 0, "b (1-1) c", 1⟩
    let numbered : Mark := ⟨"f", 0, 0, "x-1", 2⟩
    (∀ m ∈ [shorter, numbered], '\n' ∉ m.file.toList ∧ '\n' ∉ m.name.toList ∧
      (m.file.toList.takeWhile (· ≠ '/')).getLast? ≠ some ':' ∧
      m.firstLine + 1 < wordBound ∧ m.lastLine + 1 < wordBound ∧ m.occurrence < wordBound) ∧
    shorter.line = longer.line ∧
    ofLine? shorter.line = some longer ∧ longer ≠ shorter ∧
    ofLine? numbered.line = some ⟨"f", 0, 0, "x", 1⟩ := by
  decide +kernel

end Mark
end PrologSource
