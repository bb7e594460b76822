import PrologSource.Proofs.Displacement
import PrologSource.Proofs.Parenthesis

/-! Reading again from any lexeme on gives the tokens from there on. Nothing read before a lexeme
matters for the tokens behind it, except where they stand and whether a parenthesis has a gap
before it. -/
namespace PrologSource

/-- The token as it is at the start of a text, where no gap stands before it. -/
def Token.ungapped (t : Token) : Token :=
  if t.kind = .solo ∧ t.text = "(" then { t with kind := .soloNoLayout } else t

theorem Lexeme.ungapped_token {l : Lexeme} {rest : List Char} (fits : l.Fits rest)
    (afterGap : Bool) (p : Position) :
    Token.ungapped ⟨l.kind afterGap, String.ofList l.text, p⟩ =
      ⟨l.kind false, String.ofList l.text, p⟩ := by
  by_cases paren : l = .openParen
  · subst paren
    cases afterGap <;> rfl
  · have other : ¬ (l.kind afterGap = .solo ∧ String.ofList l.text = "(") := by
      rintro ⟨hk, ht⟩
      have chars := congrArg String.toList ht
      rw [String.toList_ofList] at chars
      exact paren (eq_openParen_of_kind fits (.inl hk) chars)
    rw [Token.ungapped, if_neg other]
    cases l with
    | openParen => exact absurd rfl paren
    | _ => rfl

namespace Partition
variable {P : Partition} {j : Nat} {x : Part}

theorem overrun_from (h : P.parts[j]? = some x) (gap : List Char) :
    overrun (push ⟨gap, x.lexeme⟩ ⟨P.parts.drop (j + 1), P.ending⟩) = P.overrun := by
  have last := congrArg List.getLast? (parts_eq h)
  rw [List.getLast?_append, List.getLast?_cons, Option.some_or] at last
  rw [overrun, overrun, last, push, List.getLast?_cons]
  cases (P.parts.drop (j + 1)).getLast? <;> rfl

/-- The text from the lexeme of number `j` on has the parts from there on, and no gap in front. -/
theorem ofText_from (isRead : P.IsRead) (h : P.parts[j]? = some x) :
    ofText (x.lexeme.spelling ++ P.after j) =
      push ⟨[], x.lexeme⟩ ⟨P.parts.drop (j + 1), P.ending⟩ := by
  obtain ⟨-, read, rest⟩ := (isRead_push x _).1 (isRead.from h)
  have only := ofText_spelling ((isRead_push ⟨[], x.lexeme⟩ _).2 ⟨.empty, read, rest⟩)
  rwa [spelling_push] at only

theorem endPlace_from (h : P.parts[j]? = some x) (w : Int) (p : Position) :
    (push ⟨[], x.lexeme⟩ ⟨P.parts.drop (j + 1), P.ending⟩).endPlace w (p.walk w (P.before j)) =
      P.endPlace w p := by
  rw [endPlace, endPlace, overrun_from h, spelling_eq h, Position.walk_append, spelling_push]
  rfl

theorem walk_before (h : P.parts[j]? = some x) (w : Int) (p : Position) :
    (p.walk w (P.before j)).walk w x.lexeme.spelling =
      p.walk w ((P.parts.take (j + 1)).flatMap Part.spelling) := by
  rw [List.take_add_one, h, before_eq h, ← Position.walk_append]
  simp [Part.spelling]

private theorem restart_lexeme (isRead : P.IsRead) (h : P.parts[j]? = some x) (w : Int)
    {k : Token} (hk : (P.tokens w .start)[j]? = some k) :
    ((ofText (P.spelling.drop (P.before j).length)).tokens w .start).map (·.movedTo k.position) =
      k.ungapped :: (P.tokens w .start).drop (j + 1) := by
  have inside := (List.getElem?_eq_some_iff.1 h).1
  obtain ⟨c, tail, spelled, front⟩ := (isRead.reads h).head_not_layout
  obtain rfl := Option.some.inj (hk.symm.trans (tokens_getElem? h w .start))
  have suffix : P.spelling.drop (P.before j).length = x.lexeme.spelling ++ P.after j := by
    rw [spelling_eq h, List.drop_left]
  have place : Position.start.movedTo ((Position.start.walk w (P.before j)).advance w
      x.lexeme.spelling.head?) = Position.start.walk w (P.before j) := by
    rw [spelled]
    exact Position.start_movedTo front w _
  rw [suffix, ofText_from isRead h, ← tokens_movedTo, place, tokens, endPlace_from h,
    Lexeme.ungapped_token (isRead.fits h), drop_tokens inside, ← walk_before h]
  rfl

private theorem restart_end (h : P.parts[j]? = none) (w : Int)
    {k : Token} (hk : (P.tokens w .start)[j]? = some k) :
    ((ofText (P.spelling.drop (P.before j).length)).tokens w .start).map (·.movedTo k.position) =
      k.ungapped :: (P.tokens w .start).drop (j + 1) := by
  obtain ⟨rfl, rfl⟩ := eq_end_of_token hk h
  have whole : P.before P.parts.length = P.spelling := by
    rw [before, h, List.take_length]
    rfl
  have nothing : ofText [] = ⟨[], []⟩ := by
    rw [ofText, Item.ofText]
    rfl
  rw [whole, List.drop_length, nothing, List.drop_eq_nil_of_le]
  · generalize P.endPlace w .start = last
    simp [tokens, Part.tokens, endPlace, overrun, spelling, Token.movedTo, Token.ungapped,
      Position.movedTo, Position.start, Position.advance]
  · rw [length_tokens]

end Partition

/-- The tokens of the text from the lexeme of any token on, once moved to where that token stands,
are the tokens from there on. Only a parenthesis with a gap before it changes its kind, since the
gap is left out. -/
theorem tokenizeWith_restart (w : Int) (text : String) (j : Nat) (k : Token)
    (hk : (tokenizeWith w text)[j]? = some k) :
    let start := ((Partition.ofText text.toList).before j).length
    (tokenizeWith w (String.ofList (text.toList.drop start))).map (·.movedTo k.position) =
      k.ungapped :: (tokenizeWith w text).drop (j + 1) := by
  intro start
  have isRead := Partition.isRead_ofText text.toList
  have spelled := Partition.spelling_ofText text.toList
  rw [tokenizeWith_eq] at hk
  rw [tokenizeWith_eq, tokenizeWith_eq, String.toList_ofList]
  cases hx : (Partition.ofText text.toList).parts[j]? with
  | none =>
    have rest := Partition.restart_end hx w hk
    rwa [spelled] at rest
  | some x =>
    have rest := Partition.restart_lexeme isRead hx w hk
    rwa [spelled] at rest

/-- Behind a number without the exponent that it seems to have, the letter is read as a name. -/
theorem restart_behind_number :
    (tokenizeWith 1 "1.5e+x (\n0bz")[1]? = some ⟨.atom, "e", ⟨0, 3⟩⟩ ∧
    (tokenizeWith 1 "e+x (\n0bz").map (·.movedTo ⟨0, 3⟩) =
      ⟨.atom, "e", ⟨0, 3⟩⟩ :: (tokenizeWith 1 "1.5e+x (\n0bz").drop 2 := by
  have token : (tokenizeWith 1 "1.5e+x (\n0bz")[1]? = some ⟨.atom, "e", ⟨0, 3⟩⟩ := by
    decide +kernel
  have offset : ((Partition.ofText "1.5e+x (\n0bz".toList).before 1).length = 3 := by
    decide +kernel
  have law := tokenizeWith_restart 1 "1.5e+x (\n0bz" 1 _ token
  simp only [offset] at law
  exact ⟨token, law⟩

end PrologSource
