import PrologSource.Lexeme.Quotation
import PrologSource.Scanner

namespace PrologSource
namespace Scanner

/-- Reads a code up to and including its closing backslash, on top of what `code` holds of it. -/
def readCode (base code : UInt32) (s : Scanner) : Char × Scanner :=
  match _front : s.ch with
  | none => (charOfCode code.toNat, s)
  | some c =>
    if c = '\\' then (charOfCode code.toNat, s.next)
    else s.next.readCode base (pushDigit base code c)
termination_by s.text.length
decreasing_by exact length_next_lt ‹_›

def readControl (s : Scanner) : Char × Scanner :=
  match s.ch with
  | none => ('^', s)
  | some c => if Escape.namesControl c then (Escape.controlOf c, s.next) else ('^', s)

def readEscape (s : Scanner) : List Char × Scanner :=
  match s.ch with
  | none => ([], s)
  | some c =>
    if isLayout c then ([], s.next)
    else if c = '^' then
      let control := s.next.readControl
      ([control.1], control.2)
    else if '0' ≤ c ∧ c ≤ '7' then
      let code := s.readCode 8 0
      ([code.1], code.2)
    else if c = 'x' then
      let code := s.next.readCode 16 0
      ([code.1], code.2)
    else if c = 'c' then ([], s.next.skipWhile isLayout)
    else ([Escape.symbolicOf c], s.next)

theorem length_readCode_le (base code : UInt32) (s : Scanner) :
    (s.readCode base code).2.text.length ≤ s.text.length := by
  fun_induction readCode base code s with
  | case1 => exact Nat.le_refl _
  | case2 => exact length_next_le _
  | case3 _ s _ _ _ ih => exact Nat.le_trans ih (length_next_le s)

theorem length_readControl_le (s : Scanner) : s.readControl.2.text.length ≤ s.text.length := by
  unfold readControl
  split
  · exact Nat.le_refl _
  · split
    · exact length_next_le s
    · exact Nat.le_refl _

theorem length_readEscape_le (s : Scanner) : s.readEscape.2.text.length ≤ s.text.length := by
  have step := length_next_le s
  unfold readEscape
  split
  · exact Nat.le_refl _
  split
  · exact step
  split
  · exact Nat.le_trans (length_readControl_le s.next) step
  split
  · exact length_readCode_le 8 0 s
  split
  · exact Nat.le_trans (length_readCode_le 16 0 s.next) step
  split
  · exact Nat.le_trans (length_skipWhile_le isLayout s.next) step
  · exact step

/-- Reads up to the closing quote mark, behind the opening one. A quote mark twice stands for
itself, and text without a closing mark goes to the end of the source. -/
def readQuoted (q : Quote) (s : Scanner) : List Char × Scanner :=
  match _front : s.ch with
  | none => ([], s)
  | some c =>
    if c = q.char then
      if s.next.ch = some q.char then
        let rest := s.next.next.readQuoted q
        (q.char :: rest.1, rest.2)
      else ([], s.next)
    else if c = '\\' then
      let rest := s.next.readEscape.2.readQuoted q
      (s.next.readEscape.1 ++ rest.1, rest.2)
    else
      let rest := s.next.readQuoted q
      (c :: rest.1, rest.2)
termination_by s.text.length
decreasing_by
  all_goals first
    | exact length_next_lt ‹_›
    | exact Nat.lt_of_le_of_lt (length_next_le _) (length_next_lt ‹_›)
    | exact Nat.lt_of_le_of_lt (length_readEscape_le _) (length_next_lt ‹_›)

def addQuoted (q : Quote) (kind : TokenKind) (s : Scanner) : Scanner :=
  let quoted := s.readQuoted q
  quoted.2.addToken kind quoted.1

theorem length_readQuoted_le (q : Quote) (s : Scanner) :
    (s.readQuoted q).2.text.length ≤ s.text.length := by
  fun_induction readQuoted q s with
  | case1 => exact Nat.le_refl _
  | case2 s _ _ _ ih =>
    exact Nat.le_trans ih (Nat.le_trans (length_next_le s.next) (length_next_le s))
  | case3 s => exact length_next_le s
  | case4 s _ _ _ ih =>
    exact Nat.le_trans ih (Nat.le_trans (length_readEscape_le s.next) (length_next_le s))
  | case5 s _ _ _ _ _ ih => exact Nat.le_trans ih (length_next_le s)

end Scanner
end PrologSource
