import PrologSource.Proofs.Scanner.Run
import PrologSource.Proofs.Lossless
import PrologSource.Proofs.Numeral

namespace PrologSource

def IsBasedNumber (cs : List Char) : Prop :=
  ∃ base digits, cs = decimal base ++ '\'' :: digits ∧ 2 ≤ base ∧ base ≤ 36 ∧ digits ≠ [] ∧
    ∀ c ∈ digits, isDigitIn base c

/-- Whether a token has a text of its kind. Only atoms and strings have any text. -/
def Token.InVocabulary (t : Token) : Prop :=
  match t.kind with
  | .atom | .string => True
  | .badAtom => False
  | .number => IsPlainNumber t.text.toList ∨ IsBasedNumber t.text.toList
  | .var => ∃ head tail, t.text.toList = head :: tail ∧
      ('A' ≤ head ∧ head ≤ 'Z' ∨ head = '_') ∧ ∀ c ∈ tail, isAlphanumeric c
  | .soloNoLayout => t.text = "("
  | .solo => t.text ∈ ["(", ")", ",", "[", "]", "\x7b", "|", "\x7d", "."] ∨ t.isRunaway
  | .endOfFile => t.text = ""

theorem capital_of_isUpper {c : Char} (h : isUpper c) : 'A' ≤ c ∧ c ≤ 'Z' ∨ c = '_' := by
  simp only [isUpper, decide_eq_true_eq] at h
  unfold CharClass.ofChar at h
  split at h
  · cases h
  split at h
  · assumption
  repeat' split at h
  all_goals cases h

/-! Numbers. -/

theorem Exponent.WellFormed.isExponent {e : Exponent} (h : e.WellFormed) :
    IsExponent e.spelling := by
  obtain ⟨letter, sign, digits⟩ := h
  refine ⟨e.letter, e.sign.toList, e.digits, rfl, letter, ?_, digits⟩
  cases found : e.sign with
  | none => exact .inl rfl
  | some c =>
    rcases sign c found with rfl | rfl
    · exact .inr (.inl rfl)
    · exact .inr (.inr rfl)

/-- The text of a number, whatever form it is spelled in. -/
theorem Numeral.WellFormed.text_form {n : Numeral} (h : n.WellFormed) :
    IsPlainNumber n.text ∨ IsBasedNumber n.text := by
  obtain ⟨lead, suffix⟩ := n
  obtain ⟨whole, suits⟩ := h
  cases suffix with
  | plain =>
    refine .inl (.inl ?_)
    change IsDecimal (lead ++ [])
    rwa [List.append_nil]
  | fraction digits exponent =>
    obtain ⟨fraction, form⟩ := suits
    refine .inl (.inr (.inl ⟨lead, digits, _, rfl, whole, fraction, ?_⟩))
    cases exponent with
    | none => exact .inl rfl
    | some e => exact .inr (form e rfl).isExponent
  | special name =>
    obtain ⟨rfl, named⟩ := suits
    refine .inl (.inr (.inr ?_))
    simp only [Suffix.specialNames, List.mem_cons, List.not_mem_nil, or_false] at named
    rcases named with rfl | rfl
    · exact .inl rfl
    · exact .inr rfl
  | based digits =>
    obtain ⟨-, low, high, nonempty, all⟩ := suits
    exact .inr ⟨valueIn 10 lead, digits, rfl, low, high, nonempty, all⟩
  | marked m digits =>
    obtain ⟨-, nonempty, all⟩ := suits
    exact .inr ⟨m.base, digits, rfl, m.base_range.1, m.base_range.2, nonempty, all⟩
  | code pieces => exact .inl (.inl (isDecimal_decimal _))

/-! Tokens. -/

theorem Lexeme.inVocabulary {l : Lexeme} {cs rest : List Char}
    (read : Item.Reads cs (.lexeme l) rest) (afterGap : Bool) (p : Position) :
    Token.InVocabulary ⟨l.kind afterGap, String.ofList l.text, p⟩ := by
  have fits := read.fits
  cases l with
  | name head tail =>
    cases capital : isUpper head with
    | true =>
      simp only [Token.InVocabulary, kind, capital, if_true, String.toList_ofList]
      exact ⟨head, tail, rfl, capital_of_isUpper capital, fits.2.1⟩
    | false =>
      simp only [Token.InVocabulary, kind, capital]
      trivial
  | number n =>
    have form := read.wellFormed.text_form
    rw [← String.toList_ofList (l := n.text)] at form
    exact form
  | solo c =>
    refine .inl ?_
    have punctuation : c ∈ [')', ',', '[', ']', '\x7b', '|', '\x7d'] := fits
    simp only [List.mem_cons, List.not_mem_nil, or_false] at punctuation
    change String.ofList [c] ∈ _
    rcases punctuation with rfl | rfl | rfl | rfl | rfl | rfl | rfl <;> decide
  | openParen =>
    cases afterGap with
    | true => exact .inl List.mem_cons_self
    | false => rfl
  | fullStop =>
    refine .inl ?_
    change String.ofList ['.'] ∈ _
    decide
  | runaway body => exact .inr rfl
  | quoted q =>
    cases mark : q.quote <;> simp only [Token.InVocabulary, kind, mark]
  | graphic head tail => trivial
  | soloAtom c => trivial

namespace Partition
variable {P : Partition} {j : Nat} {x : Part}

theorem IsRead.length_of_runaway (h : P.IsRead) (hx : P.parts[j]? = some x) {body : List Char}
    (runaway : x.lexeme = .runaway body) : j + 1 = P.parts.length := by
  have fits := h.fits hx
  rw [runaway] at fits
  have behind := ((isRead_push x _).1 (h.from hx)).2.2
  have none := eq_nil_of_areRead behind fits.1
  have inside := (List.getElem?_eq_some_iff.1 hx).1
  have short := List.drop_eq_nil_iff.1 none
  omega

end Partition

/-- Reading never fails, and the tokens of a text all belong to the vocabulary. The last of them,
and no other, is that of the end; the one for an unclosed comment can only stand right before it. -/
theorem tokenizeWith_vocabulary (w : Int) (text : String) :
    let tokens := tokenizeWith w text
    checkedTokens w text = .ok tokens ∧
    (∃ others p, tokens = others ++ [⟨.endOfFile, "", p⟩] ∧ ∀ t ∈ others, t.kind ≠ .endOfFile) ∧
    (∀ t ∈ tokens, t.InVocabulary) ∧
    ∀ j t, tokens[j]? = some t → t.isRunaway → j + 2 = tokens.length := by
  intro tokens
  let P := Partition.ofText text.toList
  have isRead : P.IsRead := Partition.isRead_ofText text.toList
  have same : tokens = P.tokens w .start := tokenizeWith_eq w text
  refine ⟨checkedTokens_eq w text, ⟨_, _, same, fun t => Part.kind_of_mem_tokens⟩, ?_, ?_⟩
  · intro t ht
    rw [same] at ht
    obtain ⟨j, hj⟩ := List.mem_iff_getElem?.1 ht
    cases hx : P.parts[j]? with
    | none =>
      obtain ⟨-, rfl⟩ := Partition.eq_end_of_token hj hx
      rfl
    | some x =>
      obtain rfl := Option.some.inj (hj.symm.trans (Partition.tokens_getElem? hx w .start))
      exact Lexeme.inVocabulary (isRead.reads hx) _ _
  · intro j t hj runaway
    have inside : t.kind ≠ .endOfFile := by
      simp only [Token.isRunaway, Bool.and_eq_true, decide_eq_true_eq] at runaway
      rw [runaway.1]
      decide
    rw [same] at hj
    obtain ⟨x, hx, rfl⟩ := Partition.exists_part_of_token hj inside
    obtain ⟨body, lexeme⟩ := Lexeme.eq_runaway_of_isRunaway runaway
    have last := isRead.length_of_runaway hx lexeme
    have length : tokens.length = P.parts.length + 1 := length_tokenizeWith w text
    omega

end PrologSource
