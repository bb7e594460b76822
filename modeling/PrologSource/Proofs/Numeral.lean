import PrologSource.Proofs.Lookahead.Suffix
import PrologSource.Proofs.NumberForm
import PrologSource.Proofs.Reading

namespace PrologSource
variable {cs rest t : List Char}

theorem isDecimal_takeWhile (h : cs.takeWhile isDigit ≠ []) : IsDecimal (cs.takeWhile isDigit) :=
  ⟨h, fun _ hc => List.mem_takeWhile_imp hc⟩

theorem IsDecimal.exists_cons (h : IsDecimal cs) : ∃ c tail, cs = c :: tail ∧ isDigit c := by
  obtain ⟨c, tail, rfl⟩ := List.exists_cons_of_ne_nil h.1
  exact ⟨c, tail, rfl, h.2 c List.mem_cons_self⟩

namespace Exponent
variable {e : Exponent}

def WellFormed (e : Exponent) : Prop :=
  (e.letter = 'e' ∨ e.letter = 'E') ∧ (∀ c ∈ e.sign, c = '+' ∨ c = '-') ∧ IsDecimal e.digits

theorem wellFormed_of_read? (h : read? cs = some (e, rest)) : e.WellFormed := by
  unfold read? at h
  split at h
  · cases h
  split at h
  · rename_i front
    cases h
    refine ⟨front.1, ?_, isDecimal_takeWhile front.2⟩
    intro c hc
    unfold signOf? at hc
    split at hc
    · cases hc
    split at hc
    · rename_i sign
      cases hc
      exact sign
    · cases hc
  · cases h

private theorem signOf?_append_digits {sign : Option Char} (h : ∀ c ∈ sign, c = '+' ∨ c = '-')
    {digits : List Char} (hd : IsDecimal digits) (t : List Char) :
    signOf? (sign.toList ++ (digits ++ t)) = sign := by
  cases sign with
  | some c => exact if_pos (h c rfl)
  | none =>
    obtain ⟨d, tail, rfl, digit⟩ := hd.exists_cons
    refine if_neg ?_
    rintro (rfl | rfl) <;> exact absurd digit (by decide)

theorem read?_spelling (h : e.WellFormed) (stop : ¬ t.head?.any isDigit) :
    read? (e.spelling ++ t) = some (e, t) := by
  obtain ⟨letter, sign, digits⟩ := e
  obtain ⟨front, signs, decimal⟩ := h
  have spelled : spelling ⟨letter, sign, digits⟩ ++ t =
      letter :: (sign.toList ++ (digits ++ t)) := by simp [spelling]
  have found := signOf?_append_digits signs decimal t
  have left : afterSign (sign.toList ++ (digits ++ t)) = digits ++ t := by
    rw [afterSign, found, List.drop_left]
  obtain ⟨run, behind⟩ := takeWhile_run decimal.2 stop
  rw [spelled, read?, left, run, behind, found, if_pos ⟨front, decimal.1⟩]

end Exponent

theorem Marker.base_range (m : Marker) : 2 ≤ m.base ∧ m.base ≤ 36 := by
  cases m <;> decide

theorem Marker.ofChar?_char (m : Marker) : ofChar? m.char = some m := by
  cases m <;> rfl

namespace Suffix
variable {s : Suffix} {lead digits name : List Char}

/-- What reading ensures of a suffix behind the digits `lead`. -/
def Suits (lead : List Char) : Suffix → Prop
  | .plain => True
  | .fraction digits exponent => IsDecimal digits ∧ ∀ e ∈ exponent, e.WellFormed
  | .special name => lead = ['0'] ∧ name ∈ specialNames
  | .based digits => lead ≠ ['0'] ∧ 2 ≤ valueIn 10 lead ∧ valueIn 10 lead ≤ 36 ∧ digits ≠ [] ∧
      ∀ c ∈ digits, isDigitIn (valueIn 10 lead) c
  | .marked m digits => lead = ['0'] ∧ digits ≠ [] ∧ ∀ c ∈ digits, isDigitIn m.base c
  | .code _ => lead = ['0']

theorem suits_of_fraction? (h : fraction? cs = some (s, rest)) (lead : List Char) :
    s.Suits lead := by
  unfold fraction? at h
  split at h
  · cases h
  split at h
  · rename_i front
    split at h
    · cases h
      refine ⟨isDecimal_takeWhile front.2, ?_⟩
      intro e he
      cases he
    · rename_i found
      cases h
      refine ⟨isDecimal_takeWhile front.2, ?_⟩
      intro e he
      cases he
      exact Exponent.wellFormed_of_read? found
  · cases h

theorem suits_of_special? (h : special? cs = some (s, rest)) : s.Suits ['0'] := by
  unfold special? at h
  split at h
  · cases h
  split at h
  · obtain ⟨name, found, same⟩ := Option.map_eq_some_iff.1 h
    cases same
    exact ⟨rfl, List.mem_of_find?_eq_some found⟩
  · cases h

theorem suits_of_based? (h : based? (valueIn 10 lead) cs = some (s, rest)) (other : lead ≠ ['0']) :
    s.Suits lead := by
  unfold based? at h
  split at h
  · cases h
  split at h
  · rename_i front
    cases h
    exact ⟨other, front.2.1, front.2.2.1, front.2.2.2, fun c hc => List.mem_takeWhile_imp hc⟩
  · cases h

theorem suits_of_marked? (h : marked? cs = some (s, rest)) : s.Suits ['0'] := by
  unfold marked? at h
  split at h
  · cases h
  split at h
  · cases h
  split at h <;> cases h
  rename_i nonempty
  exact ⟨rfl, nonempty, fun c hc => List.mem_takeWhile_imp hc⟩

theorem suits_of_code? (h : code? cs = some (s, rest)) : s.Suits ['0'] := by
  unfold code? at h
  split at h
  · cases h
  split at h <;> cases h
  rfl

theorem suits_read (lead cs : List Char) : (read lead cs).1.Suits lead := by
  unfold read
  cases found : (forms lead).findSome? fun form => form cs with
  | none => trivial
  | some r =>
    obtain ⟨form, mem, result⟩ := List.exists_of_findSome?_eq_some found
    unfold forms at mem
    split at mem <;> simp only [List.mem_cons, List.not_mem_nil, or_false] at mem
    · rename_i zero
      subst zero
      rcases mem with rfl | rfl | rfl | rfl
      · exact suits_of_special? result
      · exact suits_of_marked? result
      · exact suits_of_code? result
      · exact suits_of_fraction? result _
    · rename_i other
      rcases mem with rfl | rfl
      · exact suits_of_based? result other
      · exact suits_of_fraction? result _

/-! Reading a suffix back. -/

/-- No form begins with a break. -/
theorem read_break (ht : IsBreak t) (lead : List Char) : read lead t = (.plain, t) := by
  have special : special? t = none := special?_append ht []
  have marked : marked? t = none := marked?_append ht []
  have fraction : fraction? t = none := fraction?_append ht []
  have based : based? (valueIn 10 lead) t = none := based?_append ht _ []
  unfold read forms
  split <;> simp [special, marked, fraction, based, code?_break ht]

theorem fraction?_spelling {exponent : Option Exponent} (h : IsDecimal digits)
    (he : ∀ e ∈ exponent, e.WellFormed) (ht : IsBreak t) :
    fraction? ((Suffix.fraction digits exponent).spelling ++ t) =
      some (.fraction digits exponent, t) := by
  have digit := ht.not_any fun _ => isAlphanumeric_of_isDigit
  cases exponent with
  | none =>
    have spelled : (Suffix.fraction digits none).spelling ++ t = '.' :: (digits ++ t) := by
      simp [spelling]
    have absent : Exponent.read? t = none := Exponent.read?_append ht []
    obtain ⟨run, left⟩ := takeWhile_run h.2 digit
    rw [spelled, fraction?, run, left, if_pos ⟨rfl, h.1⟩, absent]
  | some e =>
    have form := he e rfl
    have spelled : (Suffix.fraction digits (some e)).spelling ++ t =
        '.' :: (digits ++ (e.spelling ++ t)) := by simp [spelling]
    have letter : ¬ (e.spelling ++ t).head?.any isDigit := by
      change ¬ isDigit e.letter
      rcases form.1 with small | capital
      · rw [small]
        decide
      · rw [capital]
        decide
    obtain ⟨run, left⟩ := takeWhile_run h.2 letter
    rw [spelled, fraction?, run, left, if_pos ⟨rfl, h.1⟩, Exponent.read?_spelling form digit]

/-- Digits behind a point are no special name. -/
theorem special?_point (h : IsDecimal digits) (t : List Char) :
    special? ('.' :: (digits ++ t)) = none := by
  obtain ⟨d, tail, rfl, digit⟩ := h.exists_cons
  have capitals : d ≠ 'N' ∧ d ≠ 'I' := by
    constructor <;> (rintro rfl; exact absurd digit (by decide))
  simp [special?, specialNames, capitals.1.symm, capitals.2.symm]

theorem special?_spelling (h : name ∈ specialNames) (ht : IsBreak t) :
    special? ((Suffix.special name).spelling ++ t) = some (.special name, t) := by
  have form : special? ('.' :: name) = some (.special name, []) := by
    simp only [specialNames, List.mem_cons, List.not_mem_nil, or_false] at h
    rcases h with rfl | rfl <;> rfl
  rw [show (Suffix.special name).spelling = '.' :: name from rfl, special?_append ht, form]
  rfl

theorem based?_spelling {base : Nat} (h2 : 2 ≤ base) (h36 : base ≤ 36) (nonempty : digits ≠ [])
    (all : ∀ c ∈ digits, isDigitIn base c) (ht : IsBreak t) :
    based? base ((Suffix.based digits).spelling ++ t) = some (.based digits, t) := by
  have digit := ht.not_any (p := isDigitIn base) fun _ => isAlphanumeric_of_isDigitIn
  obtain ⟨run, left⟩ := takeWhile_run all digit
  change based? base ('\'' :: (digits ++ t)) = _
  rw [based?, run, left, if_pos ⟨rfl, h2, h36, nonempty⟩]

theorem marked?_spelling (m : Marker) (nonempty : digits ≠ [])
    (all : ∀ c ∈ digits, isDigitIn m.base c) (ht : IsBreak t) :
    marked? ((Suffix.marked m digits).spelling ++ t) = some (.marked m digits, t) := by
  have digit := ht.not_any (p := isDigitIn m.base) fun _ => isAlphanumeric_of_isDigitIn
  obtain ⟨run, left⟩ := takeWhile_run all digit
  change marked? (m.char :: (digits ++ t)) = _
  rw [marked?, Marker.ofChar?_char]
  simp only [run, left, if_neg nonempty]

/-- A suffix that suits its digits is read back before a break. -/
theorem read_spelling (h : s.Suits lead) (noCode : ∀ pieces, s ≠ .code pieces) (ht : IsBreak t) :
    read lead (s.spelling ++ t) = (s, t) := by
  cases s with
  | plain => exact read_break ht lead
  | fraction digits exponent =>
    -- a point is tried as a special name first, and the other forms begin otherwise
    have found := fraction?_spelling h.1 h.2 ht
    have special : special? ((Suffix.fraction digits exponent).spelling ++ t) = none := by
      change special? ('.' :: ((digits ++ _) ++ t)) = none
      rw [List.append_assoc]
      exact special?_point h.1 _
    have marked : marked? ((Suffix.fraction digits exponent).spelling ++ t) = none := rfl
    have code : code? ((Suffix.fraction digits exponent).spelling ++ t) = none := rfl
    have based : based? (valueIn 10 lead) ((Suffix.fraction digits exponent).spelling ++ t) =
        none := by
      change based? _ ('.' :: _) = none
      simp [based?]
    unfold read forms
    split <;> simp [special, marked, code, based, found]
  | special name =>
    obtain ⟨rfl, mem⟩ := h
    have found := special?_spelling mem ht
    unfold read forms
    simp [found]
  | based digits =>
    obtain ⟨other, h2, h36, nonempty, all⟩ := h
    have found := based?_spelling h2 h36 nonempty all ht
    unfold read forms
    simp [other, found]
  | marked m digits =>
    obtain ⟨rfl, nonempty, all⟩ := h
    have found := marked?_spelling m nonempty all ht
    have special : special? ((Suffix.marked m digits).spelling ++ t) = none := by
      cases m <;> rfl
    unfold read forms
    simp [special, found]
  | code pieces => exact absurd rfl (noCode pieces)

/-- A suffix does not go on with a decimal digit. -/
theorem not_isDigit_head (s : Suffix) (ht : IsBreak t) :
    ¬ (s.spelling ++ t).head?.any isDigit := by
  cases s with
  | plain => exact ht.not_any fun _ => isAlphanumeric_of_isDigit
  | marked m digits => cases m <;> exact Bool.false_ne_true
  | _ => exact Bool.false_ne_true

end Suffix

namespace Numeral
variable {n : Numeral}

def WellFormed (n : Numeral) : Prop := IsDecimal n.lead ∧ n.suffix.Suits n.lead

theorem wellFormed_read {c : Char} (h : isDigit c) (cs : List Char) :
    (read (c :: cs)).1.WellFormed := by
  refine ⟨isDecimal_takeWhile ?_, Suffix.suits_read _ _⟩
  rw [List.takeWhile_cons_of_pos h]
  exact List.cons_ne_nil _ _

/-- A numeral is read back before a break, unless it is a character code. -/
theorem read_spelling (h : n.WellFormed) (noCode : ∀ pieces, n.suffix ≠ .code pieces)
    (ht : IsBreak t) : read (n.spelling ++ t) = (n, t) := by
  obtain ⟨run, left⟩ := takeWhile_run h.1.2 (n.suffix.not_isDigit_head ht)
  rw [spelling, List.append_assoc, read]
  simp only [run, left, Suffix.read_spelling h.2 noCode ht]

end Numeral

theorem Item.Reads.wellFormed {n : Numeral} (h : Reads cs (.lexeme (.number n)) rest) :
    n.WellFormed := by
  have digits : IsDecimal n.lead := h.fits
  have all := h.spelling_append
  obtain ⟨c, tail, rfl, found⟩ := h
  obtain ⟨d, more, lead, digit⟩ := digits.exists_cons
  obtain rfl : d = c := by
    rw [show (Item.lexeme (.number n)).spelling = n.lead ++ n.suffix.spelling from rfl, lead] at all
    exact (List.cons.inj all).1
  have front : CharClass.ofChar d = .digit := by simpa [isDigit] using digit
  rw [read, front] at found
  cases found
  exact Numeral.wellFormed_read digit tail

end PrologSource
