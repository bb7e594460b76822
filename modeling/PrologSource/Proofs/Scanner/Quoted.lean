import PrologSource.Lexeme.Suffix
import PrologSource.Proofs.CodeWord
import PrologSource.Proofs.Scanner.Behind
import PrologSource.Scanner.Quoted

namespace PrologSource
namespace Scanner
variable {s : Scanner} {p : Position} {cs body rest : List Char} {closed : Bool}

private theorem readCode_body (base code : UInt32) (inside : '\\' ∉ body) (rest : List Char) :
    (s.behind p (body ++ rest)).readCode base code =
      (s.behind (p.walk s.tabWidth body) rest).readCode base
        (body.foldl (pushDigit base) code) := by
  induction body generalizing p code with
  | nil => rfl
  | cons c body ih =>
    obtain ⟨other, inside⟩ := not_or.1 (List.mem_cons.not.1 inside)
    rw [List.cons_append, readCode]
    simp only [ch_behind, List.head?_cons, if_neg (Ne.symm other), next_behind, ih _ inside]
    rfl

/-- A code goes through its first backslash. -/
theorem readCode_behind (cut : Escape.IsCut cs body closed rest) (base : UInt32) :
    (s.behind p cs).readCode base 0 = (charOfCode (codeIn base body).toNat,
      s.behind (p.walk s.tabWidth (body ++ Escape.closing closed)) rest) := by
  cases cut with
  | closed inside =>
    rw [readCode_body base 0 inside, readCode]
    simp [Position.walk_append, Escape.closing, codeIn]
  | unclosed inside =>
    have read := readCode_body (s := s) (p := p) base 0 inside []
    rw [List.append_nil] at read
    rw [read, readCode]
    simp [Escape.closing, codeIn]

private theorem readControl_behind :
    (s.behind (p.advance s.tabWidth (some '^')) cs).readControl =
      ((Escape.readControl cs).1.meaning.getD '^',
        s.behind (p.walk s.tabWidth (Escape.readControl cs).1.spelling)
          (Escape.readControl cs).2) := by
  unfold readControl Escape.readControl
  cases cs with
  | nil => rfl
  | cons c cs =>
    by_cases h : Escape.namesControl c
    · simp [h, Escape.meaning, Escape.spelling]
    · simp [h, Escape.meaning, Escape.spelling]

private theorem isSome_meaning_readControl (cs : List Char) :
    (Escape.readControl cs).1.meaning.isSome := by
  unfold Escape.readControl
  split
  · rfl
  · split <;> rfl

theorem readEscape_behind : (s.behind p cs).readEscape =
    ((Escape.read cs).1.meaning.toList,
      s.behind (p.walk s.tabWidth (Escape.read cs).1.spelling) (Escape.read cs).2) := by
  unfold readEscape Escape.read
  cases cs with
  | nil => rfl
  | cons c cs =>
    simp only [ch_behind, List.head?_cons, next_behind]
    split
    · rfl
    split
    · rename_i caret
      obtain ⟨d, stands⟩ := Option.isSome_iff_exists.1 (isSome_meaning_readControl cs)
      rw [caret, readControl_behind, stands]
      rfl
    split
    · obtain ⟨body, closed, rest, cut⟩ := Escape.exists_isCut (c :: cs)
      rw [readCode_behind cut, cut.readCode_eq]
      rfl
    split
    · rename_i hex
      obtain ⟨body, closed, rest, cut⟩ := Escape.exists_isCut cs
      rw [readCode_behind cut, cut.readCode_eq, hex]
      rfl
    split
    · rename_i skip
      rw [skipWhile_behind, skip]
      rfl
    · rfl

theorem readQuoted_behind (q : Quote) : (s.behind p cs).readQuoted q =
    ((Quotation.read q cs).1.content,
      s.behind (p.walk s.tabWidth (Quotation.read q cs).1.body) (Quotation.read q cs).2) := by
  fun_induction Quotation.read q cs generalizing p with
  | case1 =>
    rw [readQuoted]
    rfl
  | case2 =>
    rw [readQuoted]
    simp [Quotation.content, Quotation.body]
  | case3 more ih =>
    rw [readQuoted]
    simp [ih, Quotation.content_push, Piece.meaning, Piece.spelling]
  | case4 d more other =>
    rw [readQuoted]
    simp [other, Quotation.content, Quotation.body]
  | case5 rest other ih =>
    rw [readQuoted]
    simp [other, readEscape_behind, ih, Quotation.content_push, Piece.meaning, Piece.spelling,
      Position.walk_append]
  | case6 c rest other plain ih =>
    rw [readQuoted]
    simp [other, plain, ih, Quotation.content_push, Piece.meaning, Piece.spelling]

theorem addQuoted_behind (q : Quote) (kind : TokenKind) : (s.behind p cs).addQuoted q kind =
    (s.addToken kind (Quotation.read q cs).1.content).behind
      (p.walk s.tabWidth (Quotation.read q cs).1.body) (Quotation.read q cs).2 := by
  rw [addQuoted, readQuoted_behind]
  rfl

end Scanner
end PrologSource
