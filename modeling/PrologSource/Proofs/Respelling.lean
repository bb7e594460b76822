import PrologSource.Proofs.Lookahead.Quotation
import PrologSource.Proofs.Lossless
import PrologSource.Proofs.Numeral

/-! Respelled tokens are read as the same tokens again. The spelling of a token is that of a lexeme,
in one form for each kind (`Lexeme.canonical`), and the respelled text falls into these lexemes
(`Partition.isRead_canonical`). Main statement: `tokenizeWith_respell`. -/
namespace PrologSource

/-! Quoted text. -/

namespace Piece

def ofChar (q : Quote) (c : Char) : Piece :=
  if c = q.char then .doubled else if c = '\\' then .escape (.symbolic '\\') else .raw c

theorem meaning_ofChar (q : Quote) (c : Char) : (ofChar q c).meaning q = some c := by
  unfold ofChar
  split
  · rename_i mark
    rw [mark]
    rfl
  split
  · rename_i backslash
    rw [backslash]
    rfl
  · rfl

theorem spelling_ofChar (q : Quote) (c : Char) :
    (ofChar q c).spelling q = if c = q.char ∨ c = '\\' then [c, c] else [c] := by
  unfold ofChar
  split
  · rename_i mark
    rw [if_pos (.inl mark), mark]
    rfl
  split
  · rename_i backslash
    rw [if_pos (.inr backslash), backslash]
    rfl
  · rename_i mark backslash
    rw [if_neg (not_or.2 ⟨mark, backslash⟩)]
    rfl

end Piece

namespace Quotation

def ofContent (q : Quote) (cs : List Char) : Quotation := ⟨q, cs.map (Piece.ofChar q), true⟩

theorem ofContent_cons (q : Quote) (c : Char) (cs : List Char) :
    ofContent q (c :: cs) = (ofContent q cs).push (Piece.ofChar q c) := rfl

@[simp] theorem content_ofContent (q : Quote) (cs : List Char) : (ofContent q cs).content = cs := by
  induction cs with
  | nil => rfl
  | cons c cs ih =>
    change (Piece.ofChar q c :: (ofContent q cs).pieces).filterMap (Piece.meaning q) = c :: cs
    rw [List.filterMap_cons_some (Piece.meaning_ofChar q c)]
    exact congrArg (c :: ·) ih

theorem body_ofContent (q : Quote) (cs : List Char) : (ofContent q cs).body =
    cs.flatMap (fun c => if c = q.char ∨ c = '\\' then [c, c] else [c]) ++ [q.char] := by
  induction cs with
  | nil => rfl
  | cons c cs ih =>
    rw [ofContent_cons, body_push, ih, List.flatMap_cons, List.append_assoc]
    exact congrArg (· ++ _) (Piece.spelling_ofChar q c)

theorem spelling_ofContent (q : Quote) (cs : List Char) :
    (ofContent q cs).spelling = Token.enquote q.char cs := by
  rw [spelling, body_ofContent]
  rfl

/-- The piece that spells a character is read back, whatever follows. -/
theorem read_ofChar (q : Quote) (c : Char) (cs : List Char) :
    read q ((Piece.ofChar q c).spelling q ++ cs) =
      ((read q cs).1.push (Piece.ofChar q c), (read q cs).2) := by
  unfold Piece.ofChar
  split
  · exact read_doubled q cs
  split
  · exact read_backslash q ('\\' :: cs)
  · rename_i mark plain
    exact read_raw mark plain cs

/-- Text in quotes is read back, unless another mark follows. -/
theorem read_ofContent (q : Quote) (cs : List Char) {t : List Char} (stop : t.head? ≠ some q.char) :
    read q ((ofContent q cs).body ++ t) = (ofContent q cs, t) := by
  induction cs with
  | nil => exact read_close stop
  | cons c cs ih =>
    rw [ofContent_cons, body_push, List.append_assoc]
    exact (read_ofChar q c _).trans (by rw [ih])

end Quotation

/-! Numbers. -/

namespace Numeral

/-- The numeral that the text of a number spells. A character code becomes an integer, and a base
stands in decimal digits. -/
def canonical (n : Numeral) : Numeral :=
  match n.suffix with
  | .based digits => ⟨decimal (valueIn 10 n.lead), .based digits⟩
  | .marked m digits => ⟨decimal m.base, .based digits⟩
  | .code _ => ⟨n.text, .plain⟩
  | _ => n

theorem spelling_canonical (n : Numeral) : n.canonical.spelling = n.text := by
  obtain ⟨lead, suffix⟩ := n
  cases suffix with
  | code pieces => exact List.append_nil _
  | _ => rfl

theorem text_canonical (n : Numeral) : n.canonical.text = n.text := by
  obtain ⟨lead, suffix⟩ := n
  cases suffix with
  | code pieces => exact List.append_nil _
  | based digits => simp [canonical, text, valueIn_decimal]
  | marked m digits => simp [canonical, text, valueIn_decimal]
  | _ => rfl

theorem canonical_ne_code (n : Numeral) (pieces : List Piece) :
    n.canonical.suffix ≠ .code pieces := by
  obtain ⟨lead, suffix⟩ := n
  cases suffix <;> simp [canonical]

/-- Digits behind the base that they are digits of. The base is no single zero, which would take the
quote for that of a character code. -/
private theorem suits_based {base : Nat} {digits : List Char} (h2 : 2 ≤ base) (h36 : base ≤ 36)
    (nonempty : digits ≠ []) (all : ∀ c ∈ digits, isDigitIn base c) :
    (Suffix.based digits).Suits (decimal base) := by
  have value := valueIn_decimal base
  refine ⟨?_, by rwa [value], by rwa [value], nonempty, by rwa [value]⟩
  intro zero
  rw [zero] at value
  change 0 = base at value
  omega

theorem WellFormed.canonical {n : Numeral} (h : n.WellFormed) : n.canonical.WellFormed := by
  obtain ⟨lead, suffix⟩ := n
  cases suffix with
  | based digits =>
    obtain ⟨-, -, h2, h36, nonempty, all⟩ := h
    exact ⟨isDecimal_decimal _, suits_based h2 h36 nonempty all⟩
  | marked m digits =>
    obtain ⟨-, -, nonempty, all⟩ := h
    exact ⟨isDecimal_decimal _, suits_based m.base_range.1 m.base_range.2 nonempty all⟩
  | code pieces => exact ⟨isDecimal_decimal _, trivial⟩
  | _ => exact h

end Numeral

/-! Lexemes. -/

namespace Lexeme

/-- The lexeme that spells a token on its own: a quoted atom for any atom, and all else as its
text. -/
def canonical : Lexeme → Lexeme
  | .name head tail =>
    if isUpper head then .name head tail else .quoted (.ofContent .single (head :: tail))
  | .graphic head tail => .quoted (.ofContent .single (head :: tail))
  | .soloAtom c => .quoted (.ofContent .single [c])
  | .number n => .number n.canonical
  | .quoted q => .quoted (.ofContent q.quote q.content)
  | .runaway _ => .runaway (Token.runawayText.toList.drop 2)
  | l => l

/-- Only a parenthesis can follow closely. -/
theorem eq_openParen_of_soloNoLayout {l : Lexeme} {afterGap : Bool}
    (h : l.kind afterGap = .soloNoLayout) : l = .openParen ∧ afterGap = false := by
  cases l with
  | openParen =>
    cases afterGap with
    | false => exact ⟨rfl, rfl⟩
    | true => cases h
  | name head tail => cases u : isUpper head <;> simp [kind, u] at h
  | quoted q => cases d : q.quote <;> simp [kind, d] at h
  | _ => cases h

theorem kind_canonical (l : Lexeme) (afterGap : Bool) :
    l.canonical.kind afterGap = l.kind afterGap := by
  cases l with
  | name head tail => cases u : isUpper head <;> simp [canonical, kind, u, Quotation.ofContent]
  | _ => rfl

theorem text_canonical (l : Lexeme) : l.canonical.text = l.text := by
  cases l with
  | name head tail =>
    cases u : isUpper head
    · simp [canonical, text, spelling, u]
    · simp [canonical, u]
  | graphic head tail => exact Quotation.content_ofContent _ _
  | soloAtom c => exact Quotation.content_ofContent _ _
  | number n => exact n.text_canonical
  | quoted q => exact Quotation.content_ofContent _ _
  | _ => rfl

theorem spelling_canonical (l : Lexeme) (afterGap : Bool) (p : Position) :
    l.canonical.spelling = Token.spelling ⟨l.kind afterGap, String.ofList l.text, p⟩ := by
  have chars := String.toList_ofList (l := l.text)
  cases l with
  | name head tail =>
    cases u : isUpper head
    · simp only [canonical, kind, u, Token.spelling, chars]
      exact Quotation.spelling_ofContent .single (head :: tail)
    · simp only [canonical, kind, u, Token.spelling, chars]
      rfl
  | graphic head tail =>
    simp only [kind, Token.spelling, chars]
    exact Quotation.spelling_ofContent .single (head :: tail)
  | soloAtom c =>
    simp only [kind, Token.spelling, chars]
    exact Quotation.spelling_ofContent .single [c]
  | number n =>
    simp only [kind, Token.spelling, chars]
    exact n.spelling_canonical
  | quoted q =>
    obtain ⟨mark, pieces, closed⟩ := q
    cases mark <;> simp only [kind, Token.spelling, chars] <;>
      exact Quotation.spelling_ofContent _ _
  | openParen => cases afterGap <;> exact chars.symm
  | solo c | fullStop | runaway body => exact chars.symm

/-- The respelled lexeme is read as such before a break. A full stop must still end its clause, and
nothing may follow an unclosed comment. -/
theorem reads_canonical {l : Lexeme} {cs rest t : List Char} (read : Item.Reads cs (.lexeme l) rest)
    (ht : IsBreak t) (clause : Item.endsClause rest → Item.endsClause t)
    (ending : rest = [] → t = []) :
    Item.Reads (l.canonical.spelling ++ t) (.lexeme l.canonical) t := by
  have fits := read.fits
  have quoted (q : Quote) (content : List Char) :
      Item.Reads ((Quotation.ofContent q content).spelling ++ t)
        (.lexeme (.quoted (.ofContent q content))) t := by
    have apart : t.head? ≠ some q.char := by
      intro mark
      cases q <;> exact (ht _ mark).2 (by decide)
    exact Item.reads_quoted (Quotation.read_ofContent q content apart)
  cases l with
  | name head tail =>
    cases u : isUpper head
    · simp only [canonical, u]
      exact quoted .single (head :: tail)
    · simp only [canonical, u]
      exact Item.reads_name fits.1 fits.2.1 (ht.not_any fun _ hc => hc)
  | graphic head tail => exact quoted .single (head :: tail)
  | soloAtom c => exact quoted .single [c]
  | quoted q => exact quoted q.quote q.content
  | number n =>
    have form := read.wellFormed.canonical
    exact Item.reads_number form.1 (Numeral.read_spelling form n.canonical_ne_code ht)
  | solo c => exact Item.reads_solo fits t
  | openParen => exact ⟨'(', t, rfl, rfl⟩
  | fullStop => exact Item.reads_fullStop (clause fits)
  | runaway body =>
    rw [ending fits.1]
    exact ⟨'/', _, rfl, rfl⟩

end Lexeme

/-! Parts. -/

namespace Part
variable {x : Part} {parts : List Part} {ending : List Char}

/-- The part that spells the token of `x`: a space stands before it unless it is a parenthesis that
follows closely. -/
def canonical (x : Part) : Part :=
  ⟨if x.lexeme.kind (x.gap ≠ []) = .soloNoLayout then [] else [' '], x.lexeme.canonical⟩

theorem spelling_canonical (x : Part) (w : Int) (p : Position) :
    x.canonical.spelling = (x.token w p).spacing ++ (x.token w p).spelling := by
  rw [spelling, canonical, Lexeme.spelling_canonical x.lexeme (x.gap ≠ [])]
  rfl

theorem kind_canonical (x : Part) :
    x.canonical.lexeme.kind (x.canonical.gap ≠ []) = x.lexeme.kind (x.gap ≠ []) := by
  rw [canonical, Lexeme.kind_canonical]
  obtain ⟨gap, l⟩ := x
  cases l with
  | openParen => by_cases close : gap = [] <;> simp [close, Lexeme.kind]
  | _ => rfl

/-- Only a parenthesis stands without a space. -/
theorem head_canonical (x : Part) :
    x.gap = [] ∧ x.lexeme = .openParen ∧ x.canonical.spelling = ['('] ∨
      ∃ tail, x.canonical.spelling = ' ' :: tail := by
  by_cases close : x.lexeme.kind (x.gap ≠ []) = .soloNoLayout
  · obtain ⟨paren, gap⟩ := Lexeme.eq_openParen_of_soloNoLayout close
    refine .inl ⟨by simpa using gap, paren, ?_⟩
    rw [spelling, canonical, if_pos close, paren]
    rfl
  · refine .inr ⟨x.canonical.lexeme.spelling, ?_⟩
    rw [spelling, canonical, if_neg close]
    rfl

theorem isBreak_canonical (parts : List Part) :
    IsBreak ((parts.map canonical).flatMap spelling ++ []) := by
  cases parts with
  | nil =>
    intro c hc
    cases hc
  | cons x parts =>
    rcases x.head_canonical with ⟨-, -, paren⟩ | ⟨tail, space⟩
    · rw [List.map_cons, List.flatMap_cons, paren]
      intro c hc
      cases hc
      decide
    · rw [List.map_cons, List.flatMap_cons, space]
      exact isBreak_of_layout fun c hc => by cases hc; decide

/-- Where a clause ended it still ends, since a parenthesis that follows closely ends none. -/
theorem endsClause_canonical (h : Item.endsClause (parts.flatMap spelling ++ ending)) :
    Item.endsClause ((parts.map canonical).flatMap spelling ++ []) := by
  cases parts with
  | nil => rfl
  | cons x parts =>
    rcases x.head_canonical with ⟨gap, lexeme, -⟩ | ⟨tail, space⟩
    · rw [List.flatMap_cons, spelling, gap, lexeme] at h
      exact absurd h Bool.false_ne_true
    · rw [List.map_cons, List.flatMap_cons, space]
      rfl

end Part

namespace Partition
variable {parts : List Part} {ending : List Char}

theorem areRead_canonical (h : AreRead ending parts) : AreRead [] (parts.map Part.canonical) := by
  induction parts with
  | nil => exact .empty
  | cons x parts ih =>
    obtain ⟨-, read, others⟩ := h
    refine ⟨?_, ?_, ih others⟩
    · change IsGap _ (if _ then [] else [' '])
      split
      · exact .empty
      · exact .layout (by decide) .empty
    · refine Lexeme.reads_canonical read (Part.isBreak_canonical parts) Part.endsClause_canonical ?_
      intro nothing
      rw [eq_nil_of_areRead others nothing]
      rfl

/-- The parts that spell the tokens of a partition. -/
def canonical (P : Partition) : Partition := ⟨P.parts.map Part.canonical, []⟩

theorem isRead_canonical {P : Partition} (h : P.IsRead) : P.canonical.IsRead :=
  areRead_canonical h

/-- Together these parts make up the respelled text. -/
theorem toList_respell (w : Int) (p : Position) (P : Partition) :
    (Token.respell (P.tokens w p)).toList = P.canonical.spelling := by
  obtain ⟨parts, ending⟩ := P
  rw [Token.respell, String.toList_ofList, filter_tokens, spelling, canonical, List.append_nil]
  dsimp only
  induction parts generalizing p with
  | nil => rfl
  | cons x parts ih =>
    rw [Part.tokens, List.flatMap_cons, ih, List.map_cons, List.flatMap_cons,
      Part.spelling_canonical x w p]

theorem map_tokens_canonical (w w' : Int) (p p' : Position) (P : Partition) :
    (P.canonical.tokens w' p').map (fun t => (t.kind, t.text)) =
      (P.tokens w p).map fun t => (t.kind, t.text) := by
  rw [map_tokens, map_tokens, canonical, List.map_map]
  refine congrArg (· ++ _) (List.map_congr_left ?_)
  intro x _
  exact Prod.ext x.kind_canonical (congrArg String.ofList x.lexeme.text_canonical)

end Partition

/-- The respelling of the tokens of a text has tokens of the same kinds and texts, one for one.
Where the tokens stand, and so the width of tabs, makes no difference. -/
theorem tokenizeWith_respell (w w' : Int) (text : String) :
    (tokenizeWith w' (Token.respell (tokenizeWith w text))).map (fun t => (t.kind, t.text)) =
      (tokenizeWith w text).map fun t => (t.kind, t.text) := by
  have isRead := Partition.isRead_ofText text.toList
  rw [tokenizeWith_eq w', tokenizeWith_eq w, Partition.toList_respell,
    Partition.ofText_spelling (Partition.isRead_canonical isRead)]
  exact Partition.map_tokens_canonical w w' .start .start _

end PrologSource
