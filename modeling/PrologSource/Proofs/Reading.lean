import PrologSource.Item
import PrologSource.Proofs.Lookahead.Break

/-! Reading one item. What is read spells what was there, and it fits what follows: a name ends
before a character that would continue it, a comment at its own end, and so on (`Reads.fits`). -/
namespace PrologSource

/-- What reading ensures of a lexeme before the text `rest`. -/
def Lexeme.Fits (rest : List Char) : Lexeme → Prop
  | .name head tail => isLetter head ∧ (∀ c ∈ tail, isAlphanumeric c) ∧
      ¬ rest.head?.any isAlphanumeric
  | .graphic head tail => isSymbol head ∧ (∀ c ∈ tail, isSymbol c) ∧ ¬ rest.head?.any isSymbol ∧
      ¬ ['/', '*'] <+: head :: tail ∧ ¬ (head = '.' ∧ tail = [] ∧ Item.endsClause rest)
  | .soloAtom c => c = '!' ∨ c = ';'
  | .solo c => c ∈ [')', ',', '[', ']', '{', '|', '}']
  | .openParen => True
  | .fullStop => Item.endsClause rest
  | .number n => n.lead ≠ [] ∧ ∀ c ∈ n.lead, isDigit c
  | .quoted q => if q.closed then rest.head? ≠ some q.quote.char else rest = []
  | .runaway body => rest = [] ∧ ¬ ['*', '/'] <:+: body

namespace Item

def Fits (rest : List Char) : Item → Prop
  | .layout c => isLayout c
  | .lineComment body => '\n' ∉ body ∧ ∀ c ∈ rest.head?, c = '\n'
  | .blockComment body => ¬ ['*', '/'] <:+: body ++ ['*']
  | .lexeme l => l.Fits rest

/-- Reading at the front of `cs` gives the item `i` and leaves `rest`. -/
def Reads (cs : List Char) (i : Item) (rest : List Char) : Prop :=
  ∃ c tail, cs = c :: tail ∧ read c tail = (i, rest)

variable {cs rest : List Char} {i : Item} {items : List Item}

theorem Reads.spelling_append (h : Reads cs i rest) : i.spelling ++ rest = cs := by
  obtain ⟨c, tail, rfl, found⟩ := h
  have all := spelling_read c tail
  rwa [found] at all

theorem Reads.spelling_ne_nil (h : Reads cs i rest) : i.spelling ≠ [] := by
  intro empty
  have all := h.spelling_append
  obtain ⟨c, tail, rfl, found⟩ := h
  have short := length_read_le c tail
  rw [found] at short
  rw [empty, List.nil_append] at all
  rw [all, List.length_cons] at short
  omega

theorem Reads.ofText_eq (h : Reads cs i rest) : ofText cs = i :: ofText rest := by
  obtain ⟨c, tail, rfl, found⟩ := h
  rw [ofText, found]

/-- There is one item at the front of a text. -/
theorem Reads.eq {j : Item} (h : Reads cs i rest) (h' : Reads cs j rest) : i = j := by
  have same := h.ofText_eq.symm.trans h'.ofText_eq
  exact (List.cons.inj same).1

/-- The items of a text are read one after another, each from the text that the items from it on
spell. -/
theorem reads_of_ofText_eq (h : ofText cs = i :: items) :
    Reads cs i (items.flatMap spelling) ∧ ofText (items.flatMap spelling) = items := by
  cases cs with
  | nil =>
    rw [ofText] at h
    cases h
  | cons c tail =>
    rw [ofText] at h
    obtain ⟨first, others⟩ := List.cons.inj h
    have left : items.flatMap spelling = (read c tail).2 := by rw [← others, spelling_ofText]
    refine ⟨⟨c, tail, rfl, ?_⟩, ?_⟩
    · rw [left, ← first]
    · rw [left, others]

/-- A list of items is a run if reading the text that it spells gives it back. -/
def IsRun (items : List Item) : Prop := ofText (items.flatMap spelling) = items

theorem isRun_ofText (cs : List Char) : IsRun (ofText cs) := by
  rw [IsRun, spelling_ofText]

theorem IsRun.cons (h : IsRun (i :: items)) :
    Reads (i.spelling ++ items.flatMap spelling) i (items.flatMap spelling) ∧ IsRun items := by
  rw [IsRun, List.flatMap_cons] at h
  exact reads_of_ofText_eq h

theorem IsRun.of_append {before after : List Item} (h : IsRun (before ++ after)) : IsRun after := by
  induction before with
  | nil => exact h
  | cons i before ih => exact ih h.cons.2

/-! Block comments. -/

theorem close_not_infix_of_splitAtClose {body : List Char}
    (h : splitAtClose cs = some (body, rest)) : ¬ ['*', '/'] <:+: body ++ ['*'] := by
  induction cs generalizing body with
  | nil => cases h
  | cons c cs ih =>
    rw [splitAtClose] at h
    split at h
    · cases h
      decide
    · rename_i open_
      obtain ⟨⟨inner, after⟩, found, same⟩ := Option.map_eq_some_iff.1 h
      cases same
      rw [List.cons_append, List.infix_cons_iff]
      rintro (front | later)
      · obtain ⟨star, slash⟩ := List.cons_prefix_cons.1 front
        have parts := spelling_of_splitAtClose found
        refine open_ ⟨star.symm, ?_⟩
        cases inner with
        | nil => simp at slash
        | cons d inner =>
          rw [List.cons_append, List.cons_prefix_cons] at slash
          rw [← parts, ← slash.1]
          rfl
      · exact ih found later

theorem close_not_infix_of_splitAtClose_eq_none (h : splitAtClose cs = none) :
    ¬ ['*', '/'] <:+: cs := by
  induction cs with
  | nil => decide
  | cons c cs ih =>
    rw [splitAtClose] at h
    split at h
    · cases h
    · rename_i open_
      rw [List.infix_cons_iff]
      rintro (front | later)
      · obtain ⟨star, slash⟩ := List.cons_prefix_cons.1 front
        obtain ⟨more, rfl⟩ := slash
        exact open_ ⟨star.symm, rfl⟩
      · exact ih (Option.map_eq_none_iff.1 h) later

/-- The first end of a comment is found where none stands before. -/
theorem splitAtClose_append {body : List Char} (h : ¬ ['*', '/'] <:+: body ++ ['*'])
    (rest : List Char) : splitAtClose (body ++ '*' :: '/' :: rest) = some (body, rest) := by
  induction body with
  | nil => simp [splitAtClose]
  | cons c body ih =>
    rw [List.cons_append, List.infix_cons_iff, not_or] at h
    have open_ : ¬ (c = '*' ∧ (body ++ '*' :: '/' :: rest).head? = some '/') := by
      rintro ⟨rfl, slash⟩
      apply h.1
      cases body with
      | nil => simp at slash
      | cons d body =>
        obtain rfl : d = '/' := by simpa using slash
        exact List.cons_prefix_cons.2 ⟨rfl, List.cons_prefix_cons.2 ⟨rfl, List.nil_prefix⟩⟩
    rw [List.cons_append, splitAtClose, if_neg open_, ih h.2]
    rfl

/-! Each reader. -/

private theorem fits_readSymbol {c : Char} (hc : isSymbol c) (tail : List Char) :
    (readSymbol c tail).1.Fits (readSymbol c tail).2 := by
  unfold readSymbol
  split
  · rename_i opening
    split
    · rename_i found
      exact close_not_infix_of_splitAtClose found
    · rename_i found
      exact ⟨rfl, close_not_infix_of_splitAtClose_eq_none found⟩
  · rename_i comment
    split
    · rename_i stop
      exact stop.2
    · rename_i stop
      refine ⟨hc, fun d hd => List.mem_takeWhile_imp hd, head_dropWhile_not _ _, ?_, ?_⟩
      · intro opening
        obtain ⟨rfl, star⟩ := List.cons_prefix_cons.1 opening
        have front := star.trans (List.takeWhile_prefix isSymbol)
        obtain ⟨more, rfl⟩ := front
        exact comment ⟨rfl, rfl⟩
      · rintro ⟨rfl, none, ends⟩
        have all := List.takeWhile_append_dropWhile (p := isSymbol) (l := tail)
        rw [none, List.nil_append] at all
        rw [all] at ends
        exact stop ⟨rfl, ends⟩

end Item

theorem Quotation.read_fits (q : Quote) (cs : List Char) :
    if (Quotation.read q cs).1.closed then (Quotation.read q cs).2.head? ≠ some q.char
    else (Quotation.read q cs).2 = [] := by
  fun_induction Quotation.read q cs <;> simp_all [Quotation.push]

namespace Item

private theorem fits_readMark {c : Char} (hc : c ∈ CharClass.marks) (tail : List Char) :
    (readMark c tail).1.Fits (readMark c tail).2 := by
  unfold readMark
  split
  · refine ⟨fun inside => ?_, ?_⟩
    · have := List.mem_takeWhile_imp inside
      simp at this
    · intro d hd
      have stop := List.head?_dropWhile_not (· ≠ '\n') tail
      rw [Option.mem_def.1 hd] at stop
      simpa using stop
  split
  · have := Quotation.read_fits .single tail
    simpa [Fits, Lexeme.Fits] using this
  split
  · have := Quotation.read_fits .double tail
    simpa [Fits, Lexeme.Fits] using this
  split
  · trivial
  split
  · assumption
  · simp_all [Fits, Lexeme.Fits, CharClass.marks]

theorem mem_marks_of_class {c : Char} (h : CharClass.ofChar c = .punctuation) :
    c ∈ CharClass.marks := by
  unfold CharClass.ofChar at h
  repeat' split at h
  all_goals cases h
  assumption

/-- An item fits the text that reading it leaves. -/
theorem Reads.fits {cs rest : List Char} {i : Item} (h : Reads cs i rest) : i.Fits rest := by
  obtain ⟨c, tail, rfl, found⟩ := h
  have fits : (read c tail).1.Fits (read c tail).2 := by
    unfold read
    split
    · rename_i front
      simp [Fits, isLayout, front]
    · rename_i front
      exact ⟨by simp [isLetter, front], fun d hd => List.mem_takeWhile_imp hd,
        head_dropWhile_not _ _⟩
    · rename_i front
      exact ⟨by simp [isLetter, front], fun d hd => List.mem_takeWhile_imp hd,
        head_dropWhile_not _ _⟩
    · rename_i front
      have digit : isDigit c := by simp [isDigit, front]
      refine ⟨?_, fun d hd => List.mem_takeWhile_imp hd⟩
      simp [Numeral.read, digit]
    · rename_i front
      exact fits_readSymbol (by simp [isSymbol, front]) tail
    · rename_i front
      exact fits_readMark (mem_marks_of_class front) tail
  rwa [found] at fits

/-- A lexeme never begins with layout. -/
theorem Reads.head_not_layout {cs rest : List Char} {l : Lexeme} (h : Reads cs (.lexeme l) rest) :
    ∃ c tail, l.spelling = c :: tail ∧ ¬ isLayout c := by
  have all := h.spelling_append
  have nonempty := h.spelling_ne_nil
  obtain ⟨c, tail, rfl, found⟩ := h
  cases spelled : l.spelling with
  | nil => exact absurd spelled nonempty
  | cons d more =>
    rw [show (Item.lexeme l).spelling = l.spelling from rfl, spelled] at all
    obtain rfl : d = c := (List.cons.inj all).1
    refine ⟨d, more, rfl, fun layout => ?_⟩
    have front : CharClass.ofChar d = .layout := by simpa [isLayout] using layout
    simp [read, front] at found

theorem reads_layout {c : Char} (h : isLayout c) (cs : List Char) :
    Reads (c :: cs) (.layout c) cs := by
  have front : CharClass.ofChar c = .layout := by simpa [isLayout] using h
  exact ⟨c, cs, rfl, by rw [read, front]⟩

theorem reads_lineComment {body cs : List Char} (inside : '\n' ∉ body)
    (stop : ∀ c ∈ cs.head?, c = '\n') : Reads ('%' :: (body ++ cs)) (.lineComment body) cs := by
  obtain ⟨run, left⟩ := takeWhile_ne_run inside stop
  refine ⟨'%', body ++ cs, rfl, ?_⟩
  change readMark '%' (body ++ cs) = _
  rw [readMark, if_pos rfl, run, left]

theorem reads_blockComment {body : List Char} (inside : ¬ ['*', '/'] <:+: body ++ ['*'])
    (cs : List Char) :
    Reads ('/' :: '*' :: (body ++ '*' :: '/' :: cs)) (.blockComment body) cs := by
  refine ⟨'/', _, rfl, ?_⟩
  change readSymbol '/' _ = _
  rw [readSymbol, if_pos ⟨rfl, rfl⟩, List.tail_cons, splitAtClose_append inside]

theorem reads_name {head : Char} {tail cs : List Char} (letter : isLetter head)
    (all : ∀ c ∈ tail, isAlphanumeric c) (stop : ¬ cs.head?.any isAlphanumeric) :
    Reads (head :: (tail ++ cs)) (.lexeme (.name head tail)) cs := by
  obtain ⟨run, left⟩ := takeWhile_run all stop
  refine ⟨head, tail ++ cs, rfl, ?_⟩
  have front : CharClass.ofChar head = .lower ∨ CharClass.ofChar head = .upper := by
    simpa [isLetter] using letter
  rcases front with lower | upper
  · rw [read, lower, run, left]
  · rw [read, upper, run, left]

theorem reads_number {n : Numeral} {cs : List Char} (digits : n.lead ≠ [] ∧ ∀ c ∈ n.lead, isDigit c)
    (h : Numeral.read (n.spelling ++ cs) = (n, cs)) :
    Reads (n.spelling ++ cs) (.lexeme (.number n)) cs := by
  obtain ⟨c, tail, lead⟩ := List.exists_cons_of_ne_nil digits.1
  have digit := digits.2 c (by simp [lead])
  have front : CharClass.ofChar c = .digit := by simpa [isDigit] using digit
  have spelled : n.spelling ++ cs = c :: (tail ++ (n.suffix.spelling ++ cs)) := by
    simp [Numeral.spelling, lead]
  rw [spelled] at h ⊢
  exact ⟨c, _, rfl, by rw [read, front, h]⟩

theorem reads_quoted {x : Quotation} {cs : List Char}
    (h : Quotation.read x.quote (x.body ++ cs) = (x, cs)) :
    Reads (x.spelling ++ cs) (.lexeme (.quoted x)) cs := by
  refine ⟨x.quote.char, x.body ++ cs, rfl, ?_⟩
  cases mark : x.quote with
  | single =>
    change (Item.lexeme (.quoted (Quotation.read .single _).1), (Quotation.read .single _).2) = _
    rw [← mark, h]
  | double =>
    change (Item.lexeme (.quoted (Quotation.read .double _).1), (Quotation.read .double _).2) = _
    rw [← mark, h]

theorem reads_solo {c : Char} (h : c ∈ [')', ',', '[', ']', '{', '|', '}']) (cs : List Char) :
    Reads (c :: cs) (.lexeme (.solo c)) cs := by
  refine ⟨c, cs, rfl, ?_⟩
  simp only [List.mem_cons, List.not_mem_nil, or_false] at h
  rcases h with rfl | rfl | rfl | rfl | rfl | rfl | rfl <;> rfl

theorem reads_fullStop {cs : List Char} (h : endsClause cs) :
    Reads ('.' :: cs) (.lexeme .fullStop) cs := by
  refine ⟨'.', cs, rfl, ?_⟩
  change readSymbol '.' cs = _
  have comment : ¬ ('.' = '/' ∧ cs.head? = some '*') := fun opening => absurd opening.1 (by decide)
  rw [readSymbol, if_neg comment, if_pos ⟨rfl, h⟩]

end Item
end PrologSource
