import Mathlib.Data.List.Find
import PrologSource.Lexeme.Suffix
import PrologSource.Proofs.Lookahead.Break

namespace PrologSource

namespace Exponent
variable {t : List Char}

theorem signOf?_append (h : IsBreak t) (s : List Char) : signOf? (s ++ t) = signOf? s := by
  cases s with
  | cons c s => rfl
  | nil =>
    cases t with
    | nil => rfl
    | cons c t =>
      have plus : c ≠ '+' := h.ne (by decide)
      have minus : c ≠ '-' := h.ne (by decide)
      simp [signOf?, plus, minus]

theorem afterSign_append (h : IsBreak t) (s : List Char) :
    afterSign (s ++ t) = afterSign s ++ t := by
  rw [afterSign, signOf?_append h, afterSign, List.drop_append_of_le_length]
  cases s with
  | nil => simp [signOf?]
  | cons c s =>
    rw [signOf?]
    split <;> simp

theorem read?_append (h : IsBreak t) (s : List Char) :
    read? (s ++ t) = (read? s).map fun r => (r.1, r.2 ++ t) := by
  have digit := h.not_any fun _ => isAlphanumeric_of_isDigit
  cases s with
  | nil =>
    cases t with
    | nil => rfl
    | cons c t =>
      have small : c ≠ 'e' := h.ne (by decide)
      have capital : c ≠ 'E' := h.ne (by decide)
      simp [read?, small, capital]
  | cons c s =>
    rw [List.cons_append, read?, signOf?_append h, afterSign_append h,
      takeWhile_append_of_head digit, dropWhile_append_of_head digit, read?]
    split <;> rfl

end Exponent

namespace Suffix
variable {t : List Char}

theorem fraction?_append (h : IsBreak t) (s : List Char) :
    fraction? (s ++ t) = (fraction? s).map fun r => (r.1, r.2 ++ t) := by
  have digit := h.not_any fun _ => isAlphanumeric_of_isDigit
  cases s with
  | nil =>
    cases t with
    | nil => rfl
    | cons c t =>
      have point : c ≠ '.' := h.ne (by decide)
      simp [fraction?, point]
  | cons c s =>
    rw [List.cons_append, fraction?, takeWhile_append_of_head digit,
      dropWhile_append_of_head digit, Exponent.read?_append h, fraction?]
    split
    · cases Exponent.read? (s.dropWhile isDigit) <;> rfl
    · rfl

/-- A name without other characters than those of names lies before a break or not at all. -/
theorem isPrefixOf_append (h : IsBreak t) {n : List Char} (hn : ∀ c ∈ n, isAlphanumeric c)
    (s : List Char) : n.isPrefixOf (s ++ t) = n.isPrefixOf s := by
  induction n generalizing s with
  | nil => rfl
  | cons c n ih =>
    cases s with
    | nil =>
      cases t with
      | nil => rfl
      | cons d t =>
        have other : d ≠ c := h.ne (.inl (hn c List.mem_cons_self))
        simp [List.isPrefixOf, other.symm]
    | cons d s =>
      rw [List.cons_append, List.isPrefixOf, List.isPrefixOf,
        ih fun e he => hn e (List.mem_cons_of_mem c he)]

theorem special?_append (h : IsBreak t) (s : List Char) :
    special? (s ++ t) = (special? s).map fun r => (r.1, r.2 ++ t) := by
  cases s with
  | nil =>
    cases t with
    | nil => rfl
    | cons c t =>
      have point : c ≠ '.' := h.ne (by decide)
      simp [special?, point]
  | cons c s =>
    have within : ∀ n ∈ specialNames, n.isPrefixOf s →
        (s ++ t).drop n.length = s.drop n.length ++ t := by
      intro n _ front
      exact List.drop_append_of_le_length (List.isPrefixOf_iff_prefix.1 front).length_le
    have same : ∀ n ∈ specialNames,
        (n.isPrefixOf (s ++ t) && !((s ++ t).drop n.length).head?.any isAlphanumeric) =
          (n.isPrefixOf s && !(s.drop n.length).head?.any isAlphanumeric) := by
      intro n hn
      have letters : specialNames.all (·.all isAlphanumeric) := by decide
      rw [isPrefixOf_append h (List.all_eq_true.1 (List.all_eq_true.1 letters n hn))]
      cases front : n.isPrefixOf s with
      | false => rfl
      | true => rw [within n hn front, head?_any_append (h.not_any fun _ hc => hc)]
    rw [List.cons_append, special?, special?]
    split
    · rw [List.find?_congr same]
      cases found : specialNames.find? _ with
      | none => rfl
      | some n =>
        have front := List.find?_some found
        rw [Bool.and_eq_true] at front
        rw [Option.map_some, within n (List.mem_of_find?_eq_some found) front.1]
        rfl
    · rfl

theorem based?_append (h : IsBreak t) (base : Nat) (s : List Char) :
    based? base (s ++ t) = (based? base s).map fun r => (r.1, r.2 ++ t) := by
  have digit := h.not_any (p := isDigitIn base) fun _ => isAlphanumeric_of_isDigitIn
  cases s with
  | nil =>
    cases t with
    | nil => rfl
    | cons c t =>
      have quote : c ≠ '\'' := h.ne (by decide)
      simp [based?, quote]
  | cons c s =>
    rw [List.cons_append, based?, takeWhile_append_of_head digit,
      dropWhile_append_of_head digit, based?]
    split <;> rfl

theorem marked?_append (h : IsBreak t) (s : List Char) :
    marked? (s ++ t) = (marked? s).map fun r => (r.1, r.2 ++ t) := by
  cases s with
  | nil =>
    cases t with
    | nil => rfl
    | cons c t =>
      have letter : Marker.ofChar? c = none := by
        rw [Marker.ofChar?, List.find?_eq_none]
        intro m _ same
        have letter : isAlphanumeric m.char := by
          cases m <;> decide
        exact h.ne (.inl letter) (of_decide_eq_true same).symm
      simp [marked?, letter]
  | cons c s =>
    rw [List.cons_append, marked?, marked?]
    cases Marker.ofChar? c with
    | none => rfl
    | some m =>
      have digit := h.not_any (p := isDigitIn m.base) fun _ => isAlphanumeric_of_isDigitIn
      simp only [takeWhile_append_of_head digit, dropWhile_append_of_head digit]
      split <;> rfl

theorem code?_break (h : IsBreak t) : code? t = none := by
  cases t with
  | nil => rfl
  | cons c t =>
    have quote : c ≠ '\'' := h.ne (by decide)
    simp [code?, quote]

end Suffix

end PrologSource
