import PrologSource.CharClass
import PrologSource.Token

/-! The state of reading, and the moves that every reader is made of. A reader looks at the current
character and moves on from it one character at a time, also past the end of the text. -/
namespace PrologSource

/-- A reader under way. `text` is what is left of the source from the current character on, and
`position` the place of that character; `saved` is where the token starts that comes next. -/
structure Scanner where
  text : List Char
  position : Position
  saved : Position
  tabWidth : Int
  tokens : Array Token

namespace Scanner

def start (tabWidth : Int) (text : List Char) : Scanner :=
  ⟨text, Position.start.advance tabWidth text.head?, .start, tabWidth, #[]⟩

def ch (s : Scanner) : Option Char := s.text.head?

/-- A character that is still to come; number 0 is right behind the current one. -/
def peek (s : Scanner) (offset : Nat) : Option Char := s.text[offset + 1]?

def next (s : Scanner) : Scanner :=
  { s with text := s.text.tail, position := s.position.advance s.tabWidth s.text.tail.head? }

def skip : Nat → Scanner → Scanner
  | 0, s => s
  | n + 1, s => s.next.skip n

def saveAt (p : Position) (s : Scanner) : Scanner := { s with saved := p }

def save (s : Scanner) : Scanner := s.saveAt s.position

def addToken (kind : TokenKind) (text : List Char) (s : Scanner) : Scanner :=
  { s with tokens := s.tokens.push ⟨kind, String.ofList text, s.saved⟩ }

theorem length_next_lt {s : Scanner} {c : Char} (h : s.ch = some c) :
    s.next.text.length < s.text.length := by
  obtain ⟨rest, same⟩ := List.head?_eq_some_iff.1 h
  simp [next, same]

theorem length_next_le (s : Scanner) : s.next.text.length ≤ s.text.length := by
  simp [next]

theorem length_next_lt_of_next {s : Scanner} {c : Char} (h : s.next.ch = some c) :
    s.next.text.length < s.text.length := by
  have more := length_next_lt h
  simp only [next, List.length_tail] at more ⊢
  omega

def readWhile (p : Char → Bool) (s : Scanner) : List Char × Scanner :=
  match _front : s.ch with
  | none => ([], s)
  | some c =>
    if p c then
      let run := s.next.readWhile p
      (c :: run.1, run.2)
    else ([], s)
termination_by s.text.length
decreasing_by all_goals exact length_next_lt ‹_›

def skipWhile (p : Char → Bool) (s : Scanner) : Scanner := (s.readWhile p).2

/-- Moves on at least once, up to the next `stop` or the end of the text. -/
def skipTo (stop : Char) (s : Scanner) : Scanner :=
  match _front : s.next.ch with
  | none => s.next
  | some c => if c = stop then s.next else s.next.skipTo stop
termination_by s.text.length
decreasing_by exact length_next_lt_of_next ‹_›

def addRun (p : Char → Bool) (kind : TokenKind) (first : Char) (s : Scanner) : Scanner :=
  let run := s.readWhile p
  run.2.addToken kind (first :: run.1)

def readName (kind : TokenKind) (first : Char) (s : Scanner) : Scanner :=
  s.addRun isAlphanumeric kind first

def readSymbol (first : Char) (s : Scanner) : Scanner := s.addRun isSymbol .atom first

/-- Skips layout. A parenthesis right behind it opens no argument list. -/
def readAfterLayout (s : Scanner) : Scanner :=
  let t := s.skipWhile isLayout
  if t.ch = some '(' then (t.save.addToken .solo ['(']).next else t

def skipLine (s : Scanner) : Scanner := s.skipTo '\n'

/-! No move goes back in the text. -/

@[simp] theorem text_saveAt (p : Position) (s : Scanner) : (s.saveAt p).text = s.text := rfl

@[simp] theorem text_save (s : Scanner) : s.save.text = s.text := rfl

@[simp] theorem text_addToken (kind : TokenKind) (cs : List Char) (s : Scanner) :
    (s.addToken kind cs).text = s.text := rfl

theorem length_skip_le (n : Nat) (s : Scanner) : (s.skip n).text.length ≤ s.text.length := by
  induction n generalizing s with
  | zero => exact Nat.le_refl _
  | succ n ih => exact Nat.le_trans (ih s.next) (length_next_le s)

theorem length_readWhile_le (p : Char → Bool) (s : Scanner) :
    (s.readWhile p).2.text.length ≤ s.text.length := by
  fun_induction readWhile p s with
  | case1 => exact Nat.le_refl _
  | case2 s _ _ _ _ ih => exact Nat.le_trans ih (length_next_le s)
  | case3 => exact Nat.le_refl _

theorem length_skipWhile_le (p : Char → Bool) (s : Scanner) :
    (s.skipWhile p).text.length ≤ s.text.length := length_readWhile_le p s

theorem length_readWhile_lt {p : Char → Bool} {s : Scanner} {c : Char} (front : s.ch = some c)
    (h : p c) : (s.readWhile p).2.text.length < s.text.length := by
  have := length_readWhile_le p s.next
  have := length_next_lt front
  rw [readWhile]
  split <;> grind

theorem length_skipTo_le (stop : Char) (s : Scanner) :
    (s.skipTo stop).text.length ≤ s.next.text.length := by
  fun_induction skipTo stop s with
  | case1 => exact Nat.le_refl _
  | case2 => exact Nat.le_refl _
  | case3 s _ _ _ ih => exact Nat.le_trans ih (length_next_le s.next)

theorem length_addRun_le (p : Char → Bool) (kind : TokenKind) (first : Char) (s : Scanner) :
    (s.addRun p kind first).text.length ≤ s.text.length := length_readWhile_le p s

theorem length_readAfterLayout_le (s : Scanner) :
    s.readAfterLayout.text.length ≤ (s.skipWhile isLayout).text.length := by
  grind [readAfterLayout, length_next_le, text_addToken, text_save]

end Scanner
end PrologSource
