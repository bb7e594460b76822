import PrologSource.Proofs.NumberForm
import PrologSource.Proofs.Placement

namespace PrologSource

/-- How a token keeps the characters of its lexeme `l`, which stands before `rest`. Only quoted
text, numbers with a base and character codes are spelled otherwise than they are meant. -/
structure Token.IsOf (t : Token) (l : Lexeme) (rest : List Char) : Prop where
  text : t.text.toList = l.text
  kind : t.kind ≠ .endOfFile ∧ t.kind ≠ .badAtom
  own : t.kind = .var ∨ t.kind = .soloNoLayout ∨ (t.kind = .solo ∧ ¬ t.isRunaway) ∨
    (t.kind = .atom ∧ l.spelling.head? ≠ some '\'') ∨
    (t.kind = .number ∧ IsPlainNumber l.spelling) → t.text.toList = l.spelling
  quotedAtom : t.kind = .atom → (∃ q, l = .quoted q) → l.spelling.head? = some '\''
  string : t.kind = .string → l.spelling.head? = some '"'
  runaway : t.isRunaway → ['/', '*'] <+: l.spelling ∧ rest = []

namespace Lexeme
variable {l : Lexeme}

theorem kind_ne (l : Lexeme) (afterGap : Bool) :
    l.kind afterGap ≠ .endOfFile ∧ l.kind afterGap ≠ .badAtom := by
  cases l with
  | name head tail => cases h : isUpper head <;> simp [kind, h]
  | openParen => cases afterGap <;> decide
  | quoted q => cases h : q.quote <;> simp [kind, h]
  | _ => simp [kind]

theorem eq_quoted_of_kind_string {afterGap : Bool} (h : l.kind afterGap = .string) :
    ∃ q, l = .quoted q ∧ q.quote = .double := by
  cases l with
  | name head tail => cases u : isUpper head <;> simp [kind, u] at h
  | openParen => cases afterGap <;> cases h
  | quoted q =>
    refine ⟨q, rfl, ?_⟩
    cases d : q.quote with
    | single => simp [kind, d] at h
    | double => rfl
  | _ => cases h

/-- Only an unclosed comment gives the token that stands for one. -/
theorem eq_runaway_of_isRunaway {afterGap : Bool} {p : Position}
    (h : Token.isRunaway ⟨l.kind afterGap, String.ofList l.text, p⟩) :
    ∃ body, l = .runaway body := by
  simp only [Token.isRunaway, Bool.and_eq_true, decide_eq_true_eq] at h
  obtain ⟨kind_solo, text_runaway⟩ := h
  have chars : l.text = Token.runawayText.toList := by rw [← text_runaway, String.toList_ofList]
  cases l with
  | runaway body => exact ⟨body, rfl⟩
  | solo c | fullStop | openParen => cases chars
  | name head tail => cases u : isUpper head <;> simp [kind, u] at kind_solo
  | quoted q => cases d : q.quote <;> simp [kind, d] at kind_solo
  | _ => cases kind_solo

theorem isOf {rest : List Char} (fits : l.Fits rest) (afterGap : Bool) (p : Position) :
    Token.IsOf ⟨l.kind afterGap, String.ofList l.text, p⟩ l rest where
  text := String.toList_ofList
  kind := l.kind_ne afterGap
  own h := by
    rw [String.toList_ofList]
    cases l with
    | number n =>
      have form : IsPlainNumber n.spelling := by simpa [Lexeme.kind, spelling] using h
      exact Numeral.text_eq_spelling form
    | quoted q =>
      cases d : q.quote <;> simp [Lexeme.kind, spelling, Quotation.spelling, Quote.char, d] at h
    | runaway body => simp [Lexeme.kind, Token.isRunaway, Lexeme.text] at h
    | _ => rfl
  quotedAtom h quoted := by
    obtain ⟨q, rfl⟩ := quoted
    cases d : q.quote with
    | single => simp [spelling, Quotation.spelling, Quote.char, d]
    | double => simp [Lexeme.kind, d] at h
  string h := by
    obtain ⟨q, rfl, double⟩ := eq_quoted_of_kind_string h
    simp [spelling, Quotation.spelling, Quote.char, double]
  runaway h := by
    obtain ⟨body, rfl⟩ := eq_runaway_of_isRunaway h
    exact ⟨⟨body, rfl⟩, fits.1⟩

end Lexeme

theorem Part.kind_of_mem_tokens {w : Int} {p : Position} {parts : List Part} {t : Token}
    (h : t ∈ tokens w p parts) : t.kind ≠ .endOfFile := by
  induction parts generalizing p with
  | nil => cases h
  | cons x parts ih =>
    rcases List.mem_cons.1 h with rfl | later
    · exact (x.lexeme.kind_ne _).1
    · exact ih later

/-- Without the token for the end there are those of the parts. -/
theorem Partition.filter_tokens (w : Int) (p : Position) (P : Partition) :
    (P.tokens w p).filter (·.kind ≠ .endOfFile) = Part.tokens w p P.parts := by
  have parts : (Part.tokens w p P.parts).filter (·.kind ≠ .endOfFile) =
      Part.tokens w p P.parts := by
    rw [List.filter_eq_self]
    intro t ht
    exact decide_eq_true (Part.kind_of_mem_tokens ht)
  rw [tokens, List.filter_append, parts]
  exact List.append_nil _

/-- The tokens of a text belong to the lexemes of its partition one by one, and a last one stands
for the end. The partition is the text again: gaps are layout and comments, each lexeme is what is
read where it stands, and its token keeps its characters. -/
theorem tokenizeWith_lossless (w : Int) (text : String) :
    let P := Partition.ofText text.toList
    let tokens := tokenizeWith w text
    P.spelling = text.toList ∧ IsGap [] P.ending ∧ tokens.length = P.parts.length + 1 ∧
    (∃ p, tokens[P.parts.length]? = some ⟨.endOfFile, "", p⟩) ∧
    ∀ j x, P.parts[j]? = some x →
      text.toList = P.before j ++ (x.lexeme.spelling ++ P.after j) ∧
      IsGap (x.lexeme.spelling ++ P.after j) x.gap ∧ x.lexeme.spelling ≠ [] ∧
      Item.Reads (x.lexeme.spelling ++ P.after j) (.lexeme x.lexeme) (P.after j) ∧
      ∃ t, tokens[j]? = some t ∧ t.IsOf x.lexeme (P.after j) := by
  intro P tokens
  have all : P.spelling = text.toList := Partition.spelling_ofText text.toList
  have isRead : P.IsRead := Partition.isRead_ofText text.toList
  have same : tokens = P.tokens w .start := tokenizeWith_eq w text
  refine ⟨all, isRead.ending, length_tokenizeWith w text, ⟨P.endPlace w .start, ?_⟩, ?_⟩
  · rw [same, Partition.tokens, List.getElem?_append_right (by rw [Part.length_tokens]),
      Part.length_tokens, Nat.sub_self]
    rfl
  · intro j x hx
    obtain ⟨gap, read, -⟩ := (Partition.isRead_push x _).1 (isRead.from hx)
    refine ⟨by rw [← all, Partition.spelling_eq hx], gap, read.spelling_ne_nil, read,
      _, by rw [same, Partition.tokens_getElem? hx], Lexeme.isOf read.fits _ _⟩

end PrologSource
