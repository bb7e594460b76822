import PrologSource.Lexeme.Numeral
import PrologSource.Text.Decimal

namespace PrologSource

def IsExponent (cs : List Char) : Prop :=
  ∃ letter sign digits, cs = letter :: (sign ++ digits) ∧ (letter = 'e' ∨ letter = 'E') ∧
    (sign = [] ∨ sign = ['+'] ∨ sign = ['-']) ∧ IsDecimal digits

def IsFloat (cs : List Char) : Prop :=
  ∃ whole fraction exponent, cs = whole ++ '.' :: (fraction ++ exponent) ∧ IsDecimal whole ∧
    IsDecimal fraction ∧ (exponent = [] ∨ IsExponent exponent)

def IsSpecialFloat (cs : List Char) : Prop := cs = "0.Nan".toList ∨ cs = "0.Inf".toList

def IsPlainNumber (cs : List Char) : Prop := IsDecimal cs ∨ IsFloat cs ∨ IsSpecialFloat cs

private theorem mem_of_isExponent {cs : List Char} (h : IsExponent cs) {c : Char} (hc : c ∈ cs) :
    isDigit c ∨ c ∈ ['e', 'E', '+', '-'] := by
  obtain ⟨letter, sign, digits, rfl, hl, hs, -, hd⟩ := h
  rcases List.mem_cons.1 hc with rfl | hc
  · rcases hl with rfl | rfl <;> simp
  rcases List.mem_append.1 hc with hc | hc
  · rcases hs with rfl | rfl | rfl <;> simp_all
  · exact .inl (hd c hc)

/-- What a plain number is written with. -/
theorem mem_of_isPlainNumber {cs : List Char} (h : IsPlainNumber cs) {c : Char} (hc : c ∈ cs) :
    isDigit c ∨ c ∈ ['e', 'E', '+', '-', '.', 'N', 'a', 'n', 'I', 'f'] := by
  rcases h with ⟨-, digits⟩ | ⟨whole, fraction, exponent, rfl, hw, hf, he⟩ | named
  · exact .inl (digits c hc)
  · simp only [List.mem_append, List.mem_cons] at hc
    rcases hc with hc | rfl | hc | hc
    · exact .inl (hw.2 c hc)
    · simp
    · exact .inl (hf.2 c hc)
    · rcases he with rfl | he
      · cases hc
      · rcases mem_of_isExponent he hc with hd | hm
        · exact .inl hd
        · exact .inr (List.mem_append_left ['.', 'N', 'a', 'n', 'I', 'f'] hm)
  · have all : ("0.Nan".toList ++ "0.Inf".toList).all fun c =>
        decide (isDigit c ∨ c ∈ ['e', 'E', '+', '-', '.', 'N', 'a', 'n', 'I', 'f']) := by decide
    have named : c ∈ "0.Nan".toList ++ "0.Inf".toList := by
      rcases named with rfl | rfl
      · exact List.mem_append_left _ hc
      · exact List.mem_append_right _ hc
    exact of_decide_eq_true (List.all_eq_true.1 all c named)

/-- A plain number is its own text. -/
theorem Numeral.text_eq_spelling {n : Numeral} (h : IsPlainNumber n.spelling) :
    n.text = n.spelling := by
  have absent (c : Char) (hc : c ∈ n.spelling) : c ≠ '\'' ∧ c ≠ 'b' ∧ c ≠ 'o' ∧ c ≠ 'x' := by
    have form := mem_of_isPlainNumber h hc
    refine ⟨?_, ?_, ?_, ?_⟩ <;> rintro rfl <;> revert form <;> decide
  obtain ⟨lead, suffix⟩ := n
  cases suffix with
  | plain | fraction _ _ | special _ => rfl
  | based digits => exact absurd rfl (absent '\'' (by simp [spelling, Suffix.spelling])).1
  | code pieces => exact absurd rfl (absent '\'' (by simp [spelling, Suffix.spelling])).1
  | marked m digits =>
    have marker := absent m.char (by simp [spelling, Suffix.spelling])
    cases m <;> simp [Marker.char] at marker

/-! Digits of a number. -/

section digits
variable {base : Nat}

theorem digitIn_digitChar {d : Nat} (hd : d < base) (h16 : base ≤ 16) :
    digitIn base d.digitChar = some d := by
  have all : ∀ d < 16, digitValue (Nat.digitChar d) = some d := by decide
  rw [digitIn, all d (Nat.lt_of_lt_of_le hd h16)]
  exact Option.filter_some_pos (decide_eq_true hd)

theorem valueIn_concat {c : Char} {d : Nat} (h : digitIn base c = some d) (cs : List Char) :
    valueIn base (cs ++ [c]) = valueIn base cs * base + d := by
  rw [valueIn, List.filterMap_append, List.foldl_append, List.filterMap_cons_some h]
  rfl

/-- The digits of a number spell it. -/
theorem valueIn_toDigits (h1 : 1 < base) (h16 : base ≤ 16) (n : Nat) :
    valueIn base (Nat.toDigits base n) = n := by
  induction n using Nat.strongRecOn with
  | ind n ih =>
    by_cases small : n < base
    · rw [Nat.toDigits_of_lt_base small, ← List.nil_append [_],
        valueIn_concat (digitIn_digitChar small h16)]
      change 0 * base + n = n
      rw [Nat.zero_mul, Nat.zero_add]
    · have shorter : n / base < n := Nat.div_lt_self (by omega) h1
      have last : n % base < base := Nat.mod_lt n (by omega)
      rw [Nat.toDigits_of_base_le h1 (by omega), valueIn_concat (digitIn_digitChar last h16),
        ih _ shorter, Nat.div_add_mod']

theorem isDigitIn_of_mem_toDigits (h1 : 1 < base) (h16 : base ≤ 16) {n : Nat} {c : Char}
    (h : c ∈ Nat.toDigits base n) : isDigitIn base c := by
  have digit {d : Nat} (hd : d < base) : isDigitIn base d.digitChar := by
    rw [isDigitIn, digitIn_digitChar hd h16]
    rfl
  induction n using Nat.strongRecOn with
  | ind n ih =>
    by_cases small : n < base
    · rw [Nat.toDigits_of_lt_base small, List.mem_singleton] at h
      exact h ▸ digit small
    · rw [Nat.toDigits_of_base_le h1 (by omega), List.mem_append, List.mem_singleton] at h
      rcases h with front | rfl
      · exact ih _ (Nat.div_lt_self (by omega) h1) front
      · exact digit (Nat.mod_lt n (by omega))

end digits

theorem isDecimal_decimal (n : Nat) : IsDecimal (decimal n) := by
  refine ⟨Nat.toDigits_ne_nil, ?_⟩
  intro c hc
  have digit := Nat.isDigit_of_mem_toDigits (by decide) (by decide) hc
  simp only [Char.isDigit, Bool.and_eq_true, decide_eq_true_eq] at digit
  exact (isDigit_iff c).2 digit

theorem valueIn_decimal (n : Nat) : valueIn 10 (decimal n) = n :=
  valueIn_toDigits (by decide) (by decide) n

end PrologSource
