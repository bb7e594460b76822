import PrologSource.Scanner

/-! Where a reader stands. The place of the current character follows from that of the one before
it, so a reader is given by a place and the text behind it (`Scanner.behind`), and each of its moves
by what it moves over. -/
namespace PrologSource
namespace Scanner

/-- The reader `s` as it stands behind the place `p` and before the text `cs`. -/
def behind (s : Scanner) (p : Position) (cs : List Char) : Scanner :=
  { s with text := cs, position := p.advance s.tabWidth cs.head? }

theorem start_eq_behind (w : Int) (cs : List Char) :
    start w cs = behind ⟨[], .start, .start, w, #[]⟩ .start cs := rfl

section moves
variable (s : Scanner) (p q : Position) (c : Char) (cs ds : List Char)

@[simp] theorem ch_behind : (s.behind p cs).ch = cs.head? := rfl

@[simp] theorem position_behind : (s.behind p cs).position = p.advance s.tabWidth cs.head? := rfl

@[simp] theorem peek_behind (n : Nat) : (s.behind p (c :: cs)).peek n = cs[n]? := rfl

theorem peek_zero_behind : (s.behind p (c :: cs)).peek 0 = cs.head? :=
  List.head?_eq_getElem?.symm

@[simp] theorem next_behind :
    (s.behind p (c :: cs)).next = s.behind (p.advance s.tabWidth (some c)) cs := rfl

@[simp] theorem addToken_behind (kind : TokenKind) :
    (s.behind p cs).addToken kind ds = (s.addToken kind ds).behind p cs := rfl

end moves

variable {s : Scanner} {p : Position} {c : Char} {cs ds : List Char}

theorem skip_behind (s : Scanner) (p : Position) (cs ds : List Char) :
    (s.behind p (cs ++ ds)).skip cs.length = s.behind (p.walk s.tabWidth cs) ds := by
  induction cs generalizing p with
  | nil => rfl
  | cons c cs ih => exact ih _

/-- A run is as long as can be. -/
theorem readWhile_behind (f : Char → Bool) : (s.behind p cs).readWhile f =
    (cs.takeWhile f, s.behind (p.walk s.tabWidth (cs.takeWhile f)) (cs.dropWhile f)) := by
  induction cs generalizing p with
  | nil =>
    rw [readWhile]
    rfl
  | cons c cs ih =>
    rw [readWhile]
    by_cases h : f c
    · simp [h, ih]
    · simp [h]

theorem skipWhile_behind (f : Char → Bool) : (s.behind p cs).skipWhile f =
    s.behind (p.walk s.tabWidth (cs.takeWhile f)) (cs.dropWhile f) := by
  rw [skipWhile, readWhile_behind]

theorem skipTo_behind (stop : Char) : (s.behind p (c :: cs)).skipTo stop =
    s.behind (p.walk s.tabWidth (c :: cs.takeWhile (· ≠ stop))) (cs.dropWhile (· ≠ stop)) := by
  induction cs generalizing p c with
  | nil =>
    rw [skipTo]
    rfl
  | cons d cs ih =>
    rw [skipTo]
    by_cases h : d = stop
    · simp [h]
    · simp [h, ih]

theorem skipTo_behind_nil (stop : Char) :
    (s.behind p []).skipTo stop = s.behind (p.advance s.tabWidth none) [] := by
  rw [skipTo]
  rfl

theorem addRun_behind (f : Char → Bool) (kind : TokenKind) (first : Char) :
    (s.behind p cs).addRun f kind first = (s.addToken kind (first :: cs.takeWhile f)).behind
      (p.walk s.tabWidth (cs.takeWhile f)) (cs.dropWhile f) := by
  simp [addRun, readWhile_behind]

end Scanner
end PrologSource
