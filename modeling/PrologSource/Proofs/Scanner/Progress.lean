import PrologSource.Proofs.Reading
import PrologSource.Proofs.Scanner.Quoted

/-! What is left to read. A reader that stands between two items has the tokens of those before it,
and those of the items behind it are still to come (`Scanner.Leads`). -/
namespace PrologSource
namespace Scanner

/-- The tokens that `s` has and those of the items of `cs`, read from `p` on, make up `all`. -/
def Completes (all : List Token) (s : Scanner) (p : Position) (afterGap : Bool)
    (cs : List Char) : Prop :=
  s.tokens.toList ++ Item.tokens s.tabWidth p afterGap (Item.ofText cs) = all

/-- Between two items the reader has read the first part of `all`, and the rest is before it. A
parenthesis behind a gap is read along with the gap. -/
def Leads (all : List Token) (s : Scanner) : Prop :=
  ∃ r p afterGap cs, s = behind r p cs ∧ (afterGap = true → cs.head? ≠ some '(') ∧
    Completes all r p afterGap cs

variable {all : List Token} {s : Scanner} {p : Position} {afterGap : Bool} {c : Char}
  {cs rest : List Char}

theorem Completes.leads (h : Completes all s p false cs) : Leads all (s.behind p cs) :=
  ⟨s, p, false, cs, rfl, nofun, h⟩

theorem Completes.gap {i : Item} (h : Completes all s p afterGap cs) (read : i.Reads cs rest)
    (gap : i.isGap) : Completes all s (p.walk s.tabWidth i.spelling) true rest := by
  have none : i.lexeme? = none := Option.isNone_iff_eq_none.1 gap
  have closed : i.overrun = 0 := by
    cases i with
    | lexeme l => cases gap
    | _ => rfl
  rw [Completes, read.ofText_eq, Item.tokens, Item.token?, none, gap,
    Item.after_eq_walk closed] at h
  exact h

theorem Completes.token {l : Lexeme} (h : Completes all s p afterGap (c :: cs))
    (read : Item.Reads (c :: cs) (.lexeme l) rest) :
    Completes all ((s.saveAt (p.advance s.tabWidth (some c))).addToken (l.kind afterGap) l.text)
      ((Item.lexeme l).after s.tabWidth p) false rest := by
  have front : l.spelling.head? = some c := by
    obtain ⟨d, tail, spelled⟩ := List.exists_cons_of_ne_nil read.spelling_ne_nil
    have whole := read.spelling_append
    rw [spelled] at whole
    exact (congrArg List.head? spelled).trans (congrArg some (List.cons.inj whole).1)
  rw [Completes, read.ofText_eq, Item.tokens] at h
  rw [Completes, ← h]
  simp [addToken, saveAt, Item.token?, Item.lexeme?, Item.isGap, front]

theorem Completes.lexeme {l : Lexeme} (h : Completes all s p afterGap (c :: cs))
    (read : Item.Reads (c :: cs) (.lexeme l) rest) (closed : (Item.lexeme l).overrun = 0) :
    Completes all ((s.saveAt (p.advance s.tabWidth (some c))).addToken (l.kind afterGap) l.text)
      (p.walk s.tabWidth l.spelling) false rest := by
  have token := h.token read
  rwa [Item.after_eq_walk closed] at token

/-! Readers that are used in more than one place. -/

theorem leads_readName (h : Completes all s p afterGap (c :: cs)) (letter : isLetter c) :
    Leads all (((s.saveAt (p.advance s.tabWidth (some c))).behind
      (p.advance s.tabWidth (some c)) cs).readName (if isUpper c then .var else .atom) c) := by
  have read : Item.Reads (c :: cs) (.lexeme (.name c (cs.takeWhile isAlphanumeric)))
      (cs.dropWhile isAlphanumeric) := by
    refine ⟨c, cs, rfl, ?_⟩
    have front : CharClass.ofChar c = .lower ∨ CharClass.ofChar c = .upper := by
      simpa [isLetter] using letter
    rcases front with lower | upper
    · rw [Item.read, lower]
    · rw [Item.read, upper]
  rw [readName, addRun_behind]
  exact (h.lexeme read rfl).leads

theorem leads_readSymbol (h : Completes all s p afterGap (c :: cs)) (symbol : isSymbol c)
    (slash : c = '/' → cs.head? ≠ some '*') (point : c = '.' → ¬ Item.endsClause cs) :
    Leads all (((s.saveAt (p.advance s.tabWidth (some c))).behind
      (p.advance s.tabWidth (some c)) cs).readSymbol c) := by
  have front : CharClass.ofChar c = .symbol := by simpa [isSymbol] using symbol
  have read : Item.Reads (c :: cs) (.lexeme (.graphic c (cs.takeWhile isSymbol)))
      (cs.dropWhile isSymbol) := by
    refine ⟨c, cs, rfl, ?_⟩
    rw [Item.read, front]
    change Item.readSymbol c cs = _
    rw [Item.readSymbol, if_neg fun opening => slash opening.1 opening.2,
      if_neg fun stop => point stop.1 stop.2]
  rw [readSymbol, addRun_behind]
  exact (h.lexeme read rfl).leads

def quotedKind : Quote → TokenKind
  | .single => .atom
  | .double => .string

theorem leads_addQuoted {q : Quote} (h : Completes all s p afterGap (q.char :: cs)) :
    Leads all (((s.saveAt (p.advance s.tabWidth (some q.char))).behind
      (p.advance s.tabWidth (some q.char)) cs).addQuoted q (quotedKind q)) := by
  have read : Item.Reads (q.char :: cs) (.lexeme (.quoted (Quotation.read q cs).1))
      (Quotation.read q cs).2 := by
    refine ⟨q.char, cs, rfl, ?_⟩
    cases q <;> rfl
  have done := h.lexeme read rfl
  have kind : (Lexeme.quoted (Quotation.read q cs).1).kind afterGap = quotedKind q := by
    rw [Lexeme.kind, Quotation.quote_read]
    rfl
  rw [kind, Lexeme.spelling, Quotation.spelling, Quotation.quote_read, Position.walk_cons] at done
  rw [addQuoted_behind]
  exact done.leads

private theorem Completes.layout (h : Completes all s p true cs) :
    Completes all s (p.walk s.tabWidth (cs.takeWhile isLayout)) true (cs.dropWhile isLayout) := by
  induction cs generalizing p with
  | nil => exact h
  | cons c cs ih =>
    by_cases layout : isLayout c
    · rw [List.takeWhile_cons_of_pos layout, List.dropWhile_cons_of_pos layout]
      exact ih (h.gap (Item.reads_layout layout cs) rfl)
    · rw [List.takeWhile_cons_of_neg layout, List.dropWhile_cons_of_neg layout]
      exact h

/-- Behind a gap, layout is skipped and a parenthesis is read with it. -/
theorem leads_readAfterLayout (h : Completes all s p true cs) :
    Leads all (s.behind p cs).readAfterLayout := by
  have behind := h.layout
  rw [readAfterLayout, skipWhile_behind]
  by_cases paren : (cs.dropWhile isLayout).head? = some '('
  · obtain ⟨rest, same⟩ := List.head?_eq_some_iff.1 paren
    rw [same] at behind ⊢
    exact (behind.lexeme ⟨'(', rest, rfl, rfl⟩ rfl).leads
  · refine ⟨s, _, true, _, ?_, fun _ => paren, behind⟩
    exact if_neg paren

end Scanner
end PrologSource
