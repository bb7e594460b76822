import PrologSource.Proofs.Placement

namespace PrologSource
namespace Lexeme
variable {l : Lexeme}

/-- A parenthesis is read as such and not within another lexeme. -/
theorem eq_openParen_of_spelling {rest : List Char} (fits : l.Fits rest)
    (h : l.spelling = ['(']) : l = .openParen := by
  cases l with
  | openParen => rfl
  | name head tail =>
    obtain ⟨rfl, -⟩ := List.cons.inj h
    exact absurd fits.1 (by decide)
  | graphic head tail =>
    obtain ⟨rfl, -⟩ := List.cons.inj h
    exact absurd fits.1 (by decide)
  | soloAtom c =>
    obtain ⟨rfl, -⟩ := List.cons.inj h
    exact absurd fits (by simp [Fits])
  | solo c =>
    obtain ⟨rfl, -⟩ := List.cons.inj h
    exact absurd fits (by simp [Fits])
  | number n =>
    obtain ⟨lead, suffix⟩ := n
    cases lead with
    | nil => exact absurd rfl fits.1
    | cons c lead =>
      obtain ⟨rfl, -⟩ := List.cons.inj h
      exact absurd (fits.2 '(' List.mem_cons_self) (by decide)
  | quoted q =>
    obtain ⟨front, -⟩ := List.cons.inj h
    cases d : q.quote <;> simp [d, Quote.char] at front
  | fullStop | runaway _ => cases h

/-- No other lexeme gives the token of a parenthesis. -/
theorem eq_openParen_of_kind {rest : List Char} (fits : l.Fits rest) {afterGap : Bool}
    (hk : l.kind afterGap = .solo ∨ l.kind afterGap = .soloNoLayout) (ht : l.text = ['(']) :
    l = .openParen := by
  cases l with
  | openParen => rfl
  | name head tail => cases u : isUpper head <;> simp [kind, u] at hk
  | solo c =>
    obtain ⟨rfl, -⟩ := List.cons.inj ht
    exact absurd fits (by simp [Fits])
  | quoted q => cases d : q.quote <;> simp [kind, d] at hk
  | fullStop | runaway _ => cases ht
  | _ => simp [kind] at hk

end Lexeme

/-- A token is an opening parenthesis exactly if its lexeme is one. Such a token has the kind of
those that follow closely exactly if the gap between the lexeme before it (or the start of the text)
and the parenthesis is empty, and else the kind of other punctuation, whatever makes up the gap. It
stands at the parenthesis itself. -/
theorem tokenizeWith_openParen (w : Int) (text : String) (j : Nat) (t : Token)
    (ht : (tokenizeWith w text)[j]? = some t) :
    let P := Partition.ofText text.toList
    (t.text = "(" ∧ (t.kind = .solo ∨ t.kind = .soloNoLayout) ↔
      ∃ x, P.parts[j]? = some x ∧ x.lexeme.spelling = ['(']) ∧
    ∀ x, P.parts[j]? = some x → x.lexeme.spelling = ['('] →
      text.toList = (P.parts.take j).flatMap Part.spelling ++ (x.gap ++ '(' :: P.after j) ∧
      IsGap ('(' :: P.after j) x.gap ∧
      (t.kind = .soloNoLayout ↔ x.gap = []) ∧ (t.kind = .solo ↔ x.gap ≠ []) ∧
      t.position = Position.start.walk w
        ((P.parts.take j).flatMap Part.spelling ++ (x.gap ++ ['('])) := by
  intro P
  rw [tokenizeWith_eq] at ht
  have lexeme_fits (x : Part) (hx : P.parts[j]? = some x) : x.lexeme.Fits (P.after j) :=
    (Partition.isRead_ofText text.toList).fits hx
  refine ⟨⟨?_, ?_⟩, ?_⟩
  · rintro ⟨text_paren, kind_paren⟩
    have inside : t.kind ≠ .endOfFile := by
      rcases kind_paren with h | h <;> simp [h]
    obtain ⟨x, hx, rfl⟩ := Partition.exists_part_of_token ht inside
    have chars := congrArg String.toList text_paren
    rw [String.toList_ofList] at chars
    refine ⟨x, hx, ?_⟩
    rw [Lexeme.eq_openParen_of_kind (lexeme_fits x hx) kind_paren chars]
    rfl
  · rintro ⟨x, hx, paren⟩
    obtain rfl := Option.some.inj (ht.symm.trans (Partition.tokens_getElem? hx w .start))
    rw [Lexeme.eq_openParen_of_spelling (lexeme_fits x hx) paren]
    refine ⟨rfl, ?_⟩
    by_cases close : x.gap = [] <;> simp [Lexeme.kind, close]
  · intro x hx paren
    obtain rfl := Option.some.inj (ht.symm.trans (Partition.tokens_getElem? hx w .start))
    have split : text.toList = (P.parts.take j).flatMap Part.spelling ++
        (x.gap ++ '(' :: P.after j) := by
      rw [← Partition.spelling_ofText text.toList, Partition.spelling_eq hx,
        Partition.before_eq hx, paren, List.append_assoc]
      rfl
    have gap := ((Partition.isRead_push x _).1 ((Partition.isRead_ofText text.toList).from hx)).1
    rw [paren] at gap
    have same := Lexeme.eq_openParen_of_spelling (lexeme_fits x hx) paren
    refine ⟨split, gap, ?_, ?_, ?_⟩
    · rw [same]
      by_cases close : x.gap = [] <;> simp [Lexeme.kind, close]
    · rw [same]
      by_cases close : x.gap = [] <;> simp [Lexeme.kind, close]
    · rw [Partition.before_eq hx, paren, ← List.append_assoc,
        Position.walk_append w .start (_ ++ x.gap) ['(']]
      rfl

/-- A line comment behind the end of a clause is a gap before a parenthesis. -/
theorem openParen_behind_lineComment :
    (tokenizeWith 1 "a.% c\n(b)")[2]? = some ⟨.solo, "(", ⟨1, 0⟩⟩ ∧
    ∃ x, (Partition.ofText "a.% c\n(b)".toList).parts[2]? = some x ∧
      x.lexeme.spelling = ['('] ∧ x.gap ≠ [] := by
  have token : (tokenizeWith 1 "a.% c\n(b)")[2]? = some ⟨.solo, "(", ⟨1, 0⟩⟩ := by
    decide +kernel
  have law := tokenizeWith_openParen 1 "a.% c\n(b)" 2 _ token
  obtain ⟨x, hx, paren⟩ := law.1.1 ⟨rfl, .inl rfl⟩
  exact ⟨token, x, hx, paren, (law.2 x hx paren).2.2.2.1.1 rfl⟩

end PrologSource
