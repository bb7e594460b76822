/-! Lexical classes of characters. An eight-bit table decides them; a code beyond the table
(255 included) is layout. -/
namespace PrologSource

inductive CharClass
  | layout | lower | upper | digit | symbol | punctuation
  deriving DecidableEq, Repr

namespace CharClass

def symbols : List Char :=
  ['#', '$', '&', '*', '+', '-', '.', '/', ':', '<', '=', '>', '?', '@', '^', '\\', '\x60', '~']

def marks : List Char := ['!', ';', '"', '\'', '%', '(', ')', ',', '[', ']', '{', '|', '}']

/-- An underscore counts as an upper-case letter, and the codes 128 to 254 as lower-case ones. -/
def ofChar (c : Char) : CharClass :=
  if 'a' ≤ c ∧ c ≤ 'z' then .lower
  else if ('A' ≤ c ∧ c ≤ 'Z') ∨ c = '_' then .upper
  else if '0' ≤ c ∧ c ≤ '9' then .digit
  else if c ∈ symbols then .symbol
  else if c ∈ marks then .punctuation
  else if 128 ≤ c.toNat ∧ c.toNat < 255 then .lower
  else .layout

def number : Option CharClass → Int
  | none => -1
  | some .layout => 0
  | some .lower => 1
  | some .upper => 2
  | some .digit => 3
  | some .symbol => 4
  | some .punctuation => 5

def name : Option CharClass → String
  | none => "EndOfFile"
  | some .layout => "Layout"
  | some .lower => "LowerLetter"
  | some .upper => "UpperLetterOrUnderscore"
  | some .digit => "Digit"
  | some .symbol => "GraphicSymbol"
  | some .punctuation => "Punctuation"

end CharClass

/-- White space in the sense of the reader, which is wider than any standard's. -/
def isLayout (c : Char) : Bool := CharClass.ofChar c = .layout

def isSymbol (c : Char) : Bool := CharClass.ofChar c = .symbol

def isDigit (c : Char) : Bool := CharClass.ofChar c = .digit

/-- A capital letter or an underscore: these begin variables. -/
def isUpper (c : Char) : Bool := CharClass.ofChar c = .upper

def isLetter (c : Char) : Bool := CharClass.ofChar c = .lower || CharClass.ofChar c = .upper

def isAlphanumeric (c : Char) : Bool := isLetter c || isDigit c

theorem isAlphanumeric_iff (c : Char) : isAlphanumeric c ↔
    CharClass.ofChar c = .lower ∨ CharClass.ofChar c = .upper ∨ CharClass.ofChar c = .digit := by
  simp [isAlphanumeric, isLetter, isDigit, or_assoc]

/-- The decimal digits are the ten of ASCII. -/
theorem isDigit_iff (c : Char) : isDigit c ↔ '0' ≤ c ∧ c ≤ '9' := by
  have small : '0' ≤ c ∧ c ≤ '9' →
      ¬ ('a' ≤ c ∧ c ≤ 'z') ∧ ¬ (('A' ≤ c ∧ c ≤ 'Z') ∨ c = '_') := by
    rintro ⟨low, high⟩
    refine ⟨fun h => absurd (Char.le_trans h.1 high) (by decide), ?_⟩
    rintro (h | rfl)
    · exact absurd (Char.le_trans h.1 high) (by decide)
    · exact absurd high (by decide)
  unfold isDigit CharClass.ofChar
  constructor
  · intro h
    apply Decidable.byContradiction
    intro no
    rw [if_neg no] at h
    repeat' split at h
    all_goals cases h
  · intro h
    rw [if_neg (small h).1, if_neg (small h).2, if_pos h]
    rfl

end PrologSource
