import PrologSource.Lexeme

/-! Source text as a sequence of items: lexemes, layout characters and comments. The items of a text
spell it, so that no character is lost or read twice (`spelling_ofText`). What is said here of an item
as a whole the reader does character by character; `tokenizeWith_eq_items` is the proof that both
come to the same tokens. -/
namespace PrologSource

/-- A stretch of source text: a lexeme, or something that may stand in a gap between two. -/
inductive Item
  | layout (c : Char)
  /-- A percent sign and the rest of its line, without the newline. -/
  | lineComment (body : List Char)
  /-- A block comment; `body` is what stands between its opening and its end. -/
  | blockComment (body : List Char)
  | lexeme (l : Lexeme)
  deriving DecidableEq, Repr

namespace Item

def spelling : Item → List Char
  | .layout c => [c]
  | .lineComment body => '%' :: body
  | .blockComment body => '/' :: '*' :: (body ++ ['*', '/'])
  | .lexeme l => l.spelling

def lexeme? : Item → Option Lexeme
  | .lexeme l => some l
  | _ => none

def isGap (i : Item) : Bool := i.lexeme?.isNone

/-- The text before the first end of a block comment, and the text after it. -/
def splitAtClose : List Char → Option (List Char × List Char)
  | [] => none
  | c :: rest =>
    if c = '*' ∧ rest.head? = some '/' then some ([], rest.tail)
    else (splitAtClose rest).map fun parts => (c :: parts.1, parts.2)

/-- A full stop ends a clause before layout, before a line comment and at the end of the text. -/
def endsClause : List Char → Bool
  | [] => true
  | c :: _ => isLayout c || c = '%'

/-- Reads from the symbol character `c` on: a block comment, a full stop, or a graphic atom as
long as can be. Block comments do not nest. -/
def readSymbol (c : Char) (rest : List Char) : Item × List Char :=
  if c = '/' ∧ rest.head? = some '*' then
    match splitAtClose rest.tail with
    | some (body, after) => (.blockComment body, after)
    | none => (.lexeme (.runaway rest.tail), [])
  else if c = '.' ∧ endsClause rest then (.lexeme .fullStop, rest)
  else (.lexeme (.graphic c (rest.takeWhile isSymbol)), rest.dropWhile isSymbol)

def readMark (c : Char) (rest : List Char) : Item × List Char :=
  if c = '%' then (.lineComment (rest.takeWhile (· ≠ '\n')), rest.dropWhile (· ≠ '\n'))
  else if c = '\'' then (.lexeme (.quoted (Quotation.read .single rest).1),
    (Quotation.read .single rest).2)
  else if c = '"' then (.lexeme (.quoted (Quotation.read .double rest).1),
    (Quotation.read .double rest).2)
  else if c = '(' then (.lexeme .openParen, rest)
  else if c = '!' ∨ c = ';' then (.lexeme (.soloAtom c), rest)
  else (.lexeme (.solo c), rest)

def read (c : Char) (rest : List Char) : Item × List Char :=
  match CharClass.ofChar c with
  | .layout => (.layout c, rest)
  | .lower | .upper => (.lexeme (.name c (rest.takeWhile isAlphanumeric)),
    rest.dropWhile isAlphanumeric)
  | .digit => (.lexeme (.number (Numeral.read (c :: rest)).1), (Numeral.read (c :: rest)).2)
  | .symbol => readSymbol c rest
  | .punctuation => readMark c rest

theorem spelling_of_splitAtClose {cs body rest : List Char}
    (h : splitAtClose cs = some (body, rest)) : body ++ '*' :: '/' :: rest = cs := by
  induction cs generalizing body with
  | nil => cases h
  | cons c cs ih =>
    rw [splitAtClose] at h
    split at h
    · rename_i close
      obtain ⟨tail, rfl⟩ := List.head?_eq_some_iff.1 close.2
      cases h
      simp [close.1]
    · obtain ⟨parts, found, same⟩ := Option.map_eq_some_iff.1 h
      cases same
      rw [List.cons_append, ih found]

theorem spelling_readSymbol (c : Char) (rest : List Char) :
    (readSymbol c rest).1.spelling ++ (readSymbol c rest).2 = c :: rest := by
  unfold readSymbol
  split
  · rename_i opening
    obtain ⟨tail, rfl⟩ := List.head?_eq_some_iff.1 opening.2
    split
    · rename_i found
      have parts := spelling_of_splitAtClose found
      rw [List.tail_cons] at parts
      simp [spelling, opening.1, parts]
    · simp [spelling, Lexeme.spelling, opening.1]
  split
  · rename_i stop
    simp [spelling, Lexeme.spelling, stop.1]
  · simp [spelling, Lexeme.spelling, List.takeWhile_append_dropWhile]

theorem spelling_readMark (c : Char) (rest : List Char) :
    (readMark c rest).1.spelling ++ (readMark c rest).2 = c :: rest := by
  unfold readMark
  split
  · rename_i h
    simp [spelling, h, List.takeWhile_append_dropWhile]
  split
  · rename_i h
    rw [h]
    exact Quotation.spelling_read .single rest
  split
  · rename_i h
    rw [h]
    exact Quotation.spelling_read .double rest
  split
  · rename_i h
    rw [h]
    rfl
  split <;> rfl

/-- An item spells what it was read from. -/
theorem spelling_read (c : Char) (rest : List Char) :
    (read c rest).1.spelling ++ (read c rest).2 = c :: rest := by
  unfold read
  split
  · rfl
  · simp [spelling, Lexeme.spelling, List.takeWhile_append_dropWhile]
  · simp [spelling, Lexeme.spelling, List.takeWhile_append_dropWhile]
  · exact Numeral.spelling_read (c :: rest)
  · exact spelling_readSymbol c rest
  · exact spelling_readMark c rest

private theorem length_le_of_append {s r rest : List Char} {c : Char} (all : s ++ r = c :: rest)
    (some : s ≠ []) : r.length ≤ rest.length := by
  have := congrArg List.length all
  have := List.length_pos_iff.2 some
  simp only [List.length_append, List.length_cons] at *
  omega

theorem spelling_readSymbol_ne_nil (c : Char) (rest : List Char) :
    (readSymbol c rest).1.spelling ≠ [] := by
  unfold readSymbol
  repeat' split
  all_goals simp [spelling, Lexeme.spelling]

theorem spelling_readMark_ne_nil (c : Char) (rest : List Char) :
    (readMark c rest).1.spelling ≠ [] := by
  unfold readMark
  repeat' split
  all_goals simp [spelling, Lexeme.spelling, Quotation.spelling]

theorem length_read_le (c : Char) (rest : List Char) : (read c rest).2.length ≤ rest.length := by
  unfold read
  split
  · exact Nat.le_refl _
  · exact (List.dropWhile_sublist _).length_le
  · exact (List.dropWhile_sublist _).length_le
  · rename_i digit
    exact Numeral.length_read_le (by simp [isDigit, digit]) rest
  · exact length_le_of_append (spelling_readSymbol c rest) (spelling_readSymbol_ne_nil c rest)
  · exact length_le_of_append (spelling_readMark c rest) (spelling_readMark_ne_nil c rest)

def ofText : List Char → List Item
  | [] => []
  | c :: rest => (read c rest).1 :: ofText (read c rest).2
termination_by cs => cs.length
decreasing_by exact Nat.lt_succ_of_le (length_read_le c rest)

/-- The items of a text spell it. -/
theorem spelling_ofText (cs : List Char) : (ofText cs).flatMap spelling = cs := by
  fun_induction ofText cs with
  | case1 => rfl
  | case2 c rest ih => rw [List.flatMap_cons, ih, spelling_read]

/-! Tokens. -/

/-- How many columns the search for a missing comment end runs past the end of the text. It steps
over a character after each star that it stops at, and over a whole run of stars at once. -/
def overrun : Item → Nat
  | .lexeme (.runaway body) =>
    match (body.reverse.takeWhile (· = '*')).length with
    | 0 => 1
    | 1 => 0
    | _ => 2
  | _ => 0

def after (tabWidth : Int) (p : Position) (i : Item) : Position :=
  ⟨(p.walk tabWidth i.spelling).line, (p.walk tabWidth i.spelling).column + i.overrun⟩

theorem after_eq_walk {i : Item} (h : i.overrun = 0) (w : Int) (p : Position) :
    i.after w p = p.walk w i.spelling := by
  simp [after, h]

def token? (tabWidth : Int) (p : Position) (afterGap : Bool) (i : Item) : Option Token :=
  i.lexeme?.map fun l =>
    ⟨l.kind afterGap, String.ofList l.text, p.advance tabWidth l.spelling.head?⟩

/-- The tokens of items read from `p` on; `afterGap` says whether a gap stands right before. -/
def tokens (tabWidth : Int) : Position → Bool → List Item → List Token
  | p, _, [] => [⟨.endOfFile, "", p.advance tabWidth none⟩]
  | p, afterGap, i :: rest =>
    (i.token? tabWidth p afterGap).toList ++ tokens tabWidth (i.after tabWidth p) i.isGap rest

end Item
end PrologSource
