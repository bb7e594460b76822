import PrologSource.Fault
import PrologSource.Scanner.Quoted
import PrologSource.Lexeme.Suffix

/-! Numbers, read character by character. What looks like the start of a suffix may turn out not to
be one only after it is read: then the number ends before it, and a token of its own begins there,
at a place kept from before. -/
namespace PrologSource

def TokenizerFault.severalCharacters (p : Position) (decoded : List Char) : TokenizerFault :=
  within ⟨"escape sequence decoded to " ++ String.ofList (quoted decoded) ++
    ", expected a single character"⟩ s!"at {p}"

namespace Scanner

/-- The base that digits spell, if it is one from 2 to 36 and takes no more than 32 bits. -/
def base? (digits : List Char) : Option Nat :=
  (if valueIn 10 digits < UInt32.size then some (valueIn 10 digits) else none).filter fun base =>
    2 ≤ base && base ≤ 36

def exponentKind (letter : Char) : TokenKind := if letter = 'E' then .var else .atom

/-- Reads digits of `base` behind the current character. If there are none, the number is `plain`,
and `other` reads a token that begins with the current character, from right behind it. -/
def readBased (base : Nat) (plain : List Char) (other : Scanner → Scanner) (s : Scanner) :
    Scanner :=
  let digits := s.next.readWhile (isDigitIn base)
  if digits.1 = [] then other ((digits.2.addToken .number plain).saveAt s.position)
  else digits.2.addToken .number (decimal base ++ '\'' :: digits.1)

def readExponent (text : List Char) (letter : Char) (s : Scanner) : Scanner :=
  let t := s.next
  if t.ch.any isDigit then
    let digits := t.readWhile isDigit
    digits.2.addToken .number (text ++ letter :: digits.1)
  else match t.ch.filter fun c => c = '+' || c = '-' with
    | some sign =>
      let u := t.next
      if u.ch.any isDigit then
        let digits := u.readWhile isDigit
        digits.2.addToken .number (text ++ letter :: sign :: digits.1)
      else
        let u := (u.addToken .number text).saveAt s.position
        ((u.addToken (exponentKind letter) [letter]).saveAt t.position).readSymbol sign
    | none =>
      ((t.addToken .number text).saveAt s.position).readName (exponentKind letter) letter

/-- Reads the digits behind a point, and an exponent; `text` holds all up to the point. -/
def readFraction (text : List Char) (s : Scanner) : Scanner :=
  let digits := s.readWhile isDigit
  match digits.2.ch.filter fun c => c = 'e' || c = 'E' with
  | some letter => digits.2.readExponent (text ++ digits.1) letter
  | none => digits.2.addToken .number (text ++ digits.1)

def readDigits (lead : List Char) (s : Scanner) : Scanner :=
  let digits := lead ++ (s.readWhile isDigit).1
  let t := (s.readWhile isDigit).2
  if t.ch = some '.' ∧ (t.peek 0).any isDigit then t.next.readFraction (digits ++ ['.'])
  else match t.ch, base? digits with
    | some '\'', some base => t.readBased base digits (·.addQuoted .single .atom)
    | _, _ => t.addToken .number digits

def readSpecialFloat? (s : Scanner) : Option Scanner :=
  let name? := Suffix.specialNames.find? fun name =>
    (name.zipIdx.all fun c => s.peek c.2 == some c.1) && !(s.peek name.length).any isAlphanumeric
  name?.map fun name => (s.skip (name.length + 1)).addToken .number ('0' :: '.' :: name)

def readCharacter (s : Scanner) : Except TokenizerFault (Option Char × Scanner) :=
  match _front : s.ch with
  | none => .ok (none, s)
  | some c =>
    if c = '\\' then
      let t := s.next.readEscape.2
      match s.next.readEscape.1 with
      | [] => t.readCharacter
      | [d] => .ok (some d, t)
      | decoded => .error (.severalCharacters t.position decoded)
    else if c = '\'' then
      .ok (some '\'', if s.next.ch = some '\'' then s.next.next else s.next)
    else .ok (some c, s.next)
termination_by s.text.length
decreasing_by exact Nat.lt_of_le_of_lt (length_readEscape_le _) (length_next_lt ‹_›)

def readAfterZero (s : Scanner) : Except TokenizerFault Scanner :=
  if s.ch = some '.' ∧ ¬ (s.peek 0).any isDigit then
    .ok (s.readSpecialFloat?.getD (s.addToken .number ['0']))
  else match s.ch.bind Marker.ofChar? with
    | some m => .ok (s.readBased m.base ['0'] (·.readName .atom m.char))
    | none =>
      if s.ch = some '\'' then s.next.readCharacter.map fun r =>
        r.2.addToken .number (match r.1 with
          | some c => decimal c.toNat
          | none => ['0'])
      else .ok (s.readDigits ['0'])

def readNumber (s : Scanner) : Except TokenizerFault Scanner :=
  if s.ch = some '0' then s.next.readAfterZero else .ok (s.readDigits [])

theorem length_readBased_le {other : Scanner → Scanner}
    (h : ∀ s, (other s).text.length ≤ s.text.length) (base : Nat) (plain : List Char)
    (s : Scanner) : (s.readBased base plain other).text.length ≤ s.text.length := by
  have := length_next_le s
  have := length_readWhile_le (isDigitIn base) s.next
  grind [readBased, text_saveAt, text_addToken]

theorem length_readExponent_le (text : List Char) (letter : Char) (s : Scanner) :
    (s.readExponent text letter).text.length ≤ s.text.length := by
  have := length_next_le s
  have := length_next_le s.next
  grind [readExponent, length_readWhile_le, readName, readSymbol, length_addRun_le,
    text_addToken, text_saveAt]

theorem length_readFraction_le (text : List Char) (s : Scanner) :
    (s.readFraction text).text.length ≤ s.text.length := by
  grind [readFraction, length_readWhile_le, length_readExponent_le, text_addToken]

theorem length_readDigits_le (lead : List Char) (s : Scanner) :
    (s.readDigits lead).text.length ≤ (s.readWhile isDigit).2.text.length := by
  have atom (t : Scanner) : (t.addQuoted .single .atom).text.length ≤ t.text.length :=
    length_readQuoted_le .single t
  have := length_next_le (s.readWhile isDigit).2
  grind [readDigits, length_readFraction_le, length_readBased_le, text_addToken]

theorem length_readSpecialFloat?_le {s t : Scanner} (h : s.readSpecialFloat? = some t) :
    t.text.length ≤ s.text.length := by
  obtain ⟨name, -, rfl⟩ := Option.map_eq_some_iff.1 h
  exact length_skip_le _ s

theorem length_readCharacter_le {s : Scanner} {r : Option Char × Scanner}
    (h : s.readCharacter = .ok r) : r.2.text.length ≤ s.text.length := by
  have := length_next_le s
  have := length_next_le s.next
  have := length_readEscape_le s.next
  fun_induction readCharacter s <;> grind [length_next_le, length_readEscape_le]

theorem length_readAfterZero_le {s t : Scanner} (h : s.readAfterZero = .ok t) :
    t.text.length ≤ s.text.length := by
  have name (m : Marker) (t : Scanner) : (t.readName .atom m.char).text.length ≤ t.text.length :=
    length_addRun_le isAlphanumeric .atom m.char t
  unfold readAfterZero at h
  split at h
  · cases h
    cases special : s.readSpecialFloat? with
    | none => exact Nat.le_refl _
    | some t => exact length_readSpecialFloat?_le special
  split at h
  · rename_i m _
    cases h
    exact length_readBased_le (name m) m.base ['0'] s
  split at h
  · cases read : s.next.readCharacter with
    | error fault => simp [read, Except.map] at h
    | ok r =>
      rw [read] at h
      cases h
      exact Nat.le_trans (length_readCharacter_le read) (length_next_le s)
  · cases h
    exact Nat.le_trans (length_readDigits_le ['0'] s) (length_readWhile_le isDigit s)

theorem length_readNumber_lt {s t : Scanner} {c : Char} (front : s.ch = some c) (digit : isDigit c)
    (h : s.readNumber = .ok t) : t.text.length < s.text.length := by
  unfold readNumber at h
  split at h
  · exact Nat.lt_of_le_of_lt (length_readAfterZero_le h) (length_next_lt front)
  · cases h
    exact Nat.lt_of_le_of_lt (length_readDigits_le [] s) (length_readWhile_lt front digit)

end Scanner
end PrologSource
