import PrologSource.Proofs.Numeral

/-! What is read behind the digits of a number, by the characters that stand there. -/
namespace PrologSource
variable {c : Char} {lead cs : List Char}

theorem takeWhile_ne_nil_of_head {p : Char → Bool} (h : cs.head?.any p) : cs.takeWhile p ≠ [] := by
  cases cs with
  | nil => cases h
  | cons c cs =>
    rw [List.takeWhile_cons_of_pos (by simpa using h)]
    exact List.cons_ne_nil _ _

theorem takeWhile_eq_nil_of_head {p : Char → Bool} (h : ¬ cs.head?.any p) :
    cs.takeWhile p = [] := by
  cases cs with
  | nil => rfl
  | cons c cs => exact List.takeWhile_cons_of_neg (by simpa using h)

namespace Exponent

theorem read?_unsigned (sign : ¬ cs.head?.any fun d => d = '+' || d = '-') (c : Char) :
    read? (c :: cs) = if (c = 'e' ∨ c = 'E') ∧ cs.takeWhile isDigit ≠ [] then
      some (⟨c, none, cs.takeWhile isDigit⟩, cs.dropWhile isDigit) else none := by
  have unsigned : signOf? cs = none := by
    cases cs with
    | nil => rfl
    | cons d cs => exact if_neg (by simpa using sign)
  have after : afterSign cs = cs := by
    rw [afterSign, unsigned]
    rfl
  rw [read?, after, unsigned]

theorem read?_sign (letter : c = 'e' ∨ c = 'E') {sign : Char}
    (hs : sign = '+' ∨ sign = '-') (cs : List Char) : read? (c :: sign :: cs) =
      if cs.takeWhile isDigit = [] then none
      else some (⟨c, some sign, cs.takeWhile isDigit⟩, cs.dropWhile isDigit) := by
  have signed : signOf? (sign :: cs) = some sign := if_pos hs
  have after : afterSign (sign :: cs) = cs := by
    rw [afterSign, signed]
    rfl
  rw [read?, after, signed]
  by_cases digits : cs.takeWhile isDigit = []
  · rw [if_pos digits, if_neg fun h => h.2 digits]
  · rw [if_neg digits, if_pos ⟨letter, digits⟩]

end Exponent

namespace Suffix

theorem fraction?_of_ne (h : c ≠ '.') (cs : List Char) : fraction? (c :: cs) = none := by
  rw [fraction?, if_neg fun point => h point.1]

theorem special?_of_digit (digit : cs.head?.any isDigit) : special? ('.' :: cs) = none := by
  have special := special?_point (isDecimal_takeWhile (takeWhile_ne_nil_of_head digit))
    (cs.dropWhile isDigit)
  rwa [List.takeWhile_append_dropWhile] at special

theorem read_zero (rest : List Char) : read ['0'] rest =
    ((special? rest).or ((marked? rest).or ((code? rest).or (fraction? rest)))).getD
      (.plain, rest) := by
  rw [read, forms, if_pos rfl]
  cases special : special? rest <;> cases marked : marked? rest <;>
    cases code : code? rest <;> cases fraction : fraction? rest <;>
    simp [special, marked, code, fraction]

theorem read_other (other : lead ≠ ['0']) (rest : List Char) : read lead rest =
    ((based? (valueIn 10 lead) rest).or (fraction? rest)).getD (.plain, rest) := by
  rw [read, forms, if_neg other]
  cases based : based? (valueIn 10 lead) rest <;> cases fraction : fraction? rest <;>
    simp [based, fraction]

/-- Behind a point with a digit there is a fraction, and nothing else. -/
theorem read_fraction (lead : List Char) (digit : cs.head?.any isDigit) :
    read lead ('.' :: cs) =
      (.fraction (cs.takeWhile isDigit) ((Exponent.read? (cs.dropWhile isDigit)).map (·.1)),
        ((Exponent.read? (cs.dropWhile isDigit)).map (·.2)).getD (cs.dropWhile isDigit)) := by
  have fraction : (fraction? ('.' :: cs)).getD (.plain, '.' :: cs) =
      (.fraction (cs.takeWhile isDigit) ((Exponent.read? (cs.dropWhile isDigit)).map (·.1)),
        ((Exponent.read? (cs.dropWhile isDigit)).map (·.2)).getD (cs.dropWhile isDigit)) := by
    rw [fraction?, if_pos ⟨rfl, takeWhile_ne_nil_of_head digit⟩]
    cases Exponent.read? (cs.dropWhile isDigit) <;> rfl
  by_cases zero : lead = ['0']
  · rw [zero, read_zero, special?_of_digit digit]
    exact fraction
  · have based : based? (valueIn 10 lead) ('.' :: cs) = none := by
      rw [based?, if_neg fun h => absurd h.1 (by decide)]
    rw [read_other zero, based]
    exact fraction

theorem read_based (low : 2 ≤ valueIn 10 lead) (high : valueIn 10 lead ≤ 36) (cs : List Char) :
    read lead ('\'' :: cs) = if cs.takeWhile (isDigitIn (valueIn 10 lead)) = [] then
        (.plain, '\'' :: cs)
      else (.based (cs.takeWhile (isDigitIn (valueIn 10 lead))),
        cs.dropWhile (isDigitIn (valueIn 10 lead))) := by
  have other : lead ≠ ['0'] := by
    rintro rfl
    exact absurd low (by decide)
  rw [read_other other, fraction?_of_ne (by decide), based?]
  by_cases digits : cs.takeWhile (isDigitIn (valueIn 10 lead)) = []
  · simp [digits]
  · simp [digits, low, high]

theorem read_marked (m : Marker) (cs : List Char) : read ['0'] (m.char :: cs) =
      if cs.takeWhile (isDigitIn m.base) = [] then (.plain, m.char :: cs)
      else (.marked m (cs.takeWhile (isDigitIn m.base)), cs.dropWhile (isDigitIn m.base)) := by
  have special : special? (m.char :: cs) = none := by
    rw [special?, if_neg (by cases m <;> decide)]
  have code : code? (m.char :: cs) = none := by cases m <;> rfl
  have fraction := fraction?_of_ne (c := m.char) (by cases m <;> decide) cs
  rw [read_zero, special, code, fraction, marked?]
  simp only [Marker.ofChar?_char]
  by_cases digits : cs.takeWhile (isDigitIn m.base) = []
  · simp [digits]
  · simp [digits]

end Suffix
end PrologSource
