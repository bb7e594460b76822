import Mathlib.Data.List.TakeWhile
import PrologSource.CharClass
import PrologSource.Radix

namespace PrologSource

/-- Text that continues no number, quotation or escape before it: each of them stops at a
character like its first one, or at the end of the text. -/
def IsBreak (t : List Char) : Prop :=
  ∀ c ∈ t.head?, ¬ isAlphanumeric c ∧ c ∉ ['+', '-', '.', '\'', '"', '?', '@', '\\', '^']

def beginsGap (c : Char) : Prop := isLayout c ∨ c = '%' ∨ c = '/'

instance (c : Char) : Decidable (beginsGap c) :=
  inferInstanceAs (Decidable (isLayout c ∨ c = '%' ∨ c = '/'))

theorem beginsGap.isBreak {c : Char} (h : beginsGap c) (t : List Char) : IsBreak (c :: t) := by
  intro d hd
  cases hd
  rcases h with layout | rfl | rfl
  · have front : CharClass.ofChar c = .layout := by simpa [isLayout] using layout
    refine ⟨by simp [isAlphanumeric_iff, front], fun mem => ?_⟩
    have others : ['+', '-', '.', '\'', '"', '?', '@', '\\', '^'].all (!isLayout ·) := by decide
    simpa [layout] using List.all_eq_true.1 others c mem
  · exact ⟨by decide, by decide⟩
  · exact ⟨by decide, by decide⟩

theorem isBreak_of_layout {t : List Char} (h : ∀ c ∈ t.head?, isLayout c) : IsBreak t := by
  cases t with
  | nil => exact nofun
  | cons c t => exact beginsGap.isBreak (.inl (h c rfl)) t

theorem IsBreak.ne {c d : Char} {t : List Char} (h : IsBreak (c :: t))
    (hd : isAlphanumeric d ∨ d ∈ ['+', '-', '.', '\'', '"', '?', '@', '\\', '^']) : c ≠ d := by
  rintro rfl
  obtain ⟨letter, other⟩ := h c rfl
  exact hd.elim letter other

theorem isAlphanumeric_of_isDigit {c : Char} (h : isDigit c) : isAlphanumeric c := by
  simp [isAlphanumeric, h]

/-- The digits of every base are letters and decimal digits. -/
theorem isAlphanumeric_of_isDigitIn {base : Nat} {c : Char} (h : isDigitIn base c) :
    isAlphanumeric c := by
  have some_value : digitValue c ≠ none := by
    intro none
    simp [isDigitIn, digitIn, none] at h
  rw [isAlphanumeric_iff]
  unfold digitValue at some_value
  split at some_value
  · rename_i digit
    have := (isDigit_iff c).2 digit
    exact .inr (.inr (by simpa [isDigit] using this))
  split at some_value
  · rename_i lower
    exact .inl (by rw [CharClass.ofChar, if_pos lower])
  split at some_value
  · rename_i lower upper
    exact .inr (.inl (by rw [CharClass.ofChar, if_neg lower, if_pos (.inl upper)]))
  · exact absurd rfl some_value

/-! Runs of characters. -/

theorem takeWhile_append_of_head {p : Char → Bool} {t : List Char} (h : ¬ t.head?.any p)
    (s : List Char) : (s ++ t).takeWhile p = s.takeWhile p := by
  induction s with
  | nil =>
    cases t with
    | nil => rfl
    | cons c t => simpa using h
  | cons c s ih =>
    by_cases hc : p c
    · rw [List.cons_append, List.takeWhile_cons_of_pos hc, ih, List.takeWhile_cons_of_pos hc]
    · rw [List.cons_append, List.takeWhile_cons_of_neg hc, List.takeWhile_cons_of_neg hc]

theorem dropWhile_append_of_head {p : Char → Bool} {t : List Char} (h : ¬ t.head?.any p)
    (s : List Char) : (s ++ t).dropWhile p = s.dropWhile p ++ t := by
  induction s with
  | nil =>
    cases t with
    | nil => rfl
    | cons c t => simpa using h
  | cons c s ih =>
    by_cases hc : p c
    · rw [List.cons_append, List.dropWhile_cons_of_pos hc, ih, List.dropWhile_cons_of_pos hc]
    · rw [List.cons_append, List.dropWhile_cons_of_neg hc, List.dropWhile_cons_of_neg hc,
        List.cons_append]

/-- A run ends where a character follows that does not belong to it. -/
theorem takeWhile_run {p : Char → Bool} {s t : List Char} (all : ∀ c ∈ s, p c)
    (stop : ¬ t.head?.any p) : (s ++ t).takeWhile p = s ∧ (s ++ t).dropWhile p = t := by
  have run := takeWhile_append_of_head stop []
  have left := dropWhile_append_of_head stop []
  rw [List.nil_append] at run left
  rw [List.takeWhile_append_of_pos all, List.dropWhile_append_of_pos all, run, left]
  exact ⟨List.append_nil s, rfl⟩

theorem head_dropWhile_not (p : Char → Bool) (cs : List Char) :
    ¬ (cs.dropWhile p).head?.any p := by
  have stop := List.head?_dropWhile_not p cs
  cases h : (cs.dropWhile p).head? with
  | none => simp
  | some c =>
    rw [h] at stop
    simpa using stop

/-- A run up to a character ends at the first one, or with the text. -/
theorem takeWhile_ne_run {c : Char} {s t : List Char} (inside : c ∉ s)
    (stop : ∀ d ∈ t.head?, d = c) :
    (s ++ t).takeWhile (· ≠ c) = s ∧ (s ++ t).dropWhile (· ≠ c) = t := by
  have all : ∀ d ∈ s, decide (d ≠ c) = true := by
    intro d hd
    simpa using fun same : d = c => inside (same ▸ hd)
  have none : ¬ t.head?.any (· ≠ c) := by
    cases t with
    | nil => exact Bool.false_ne_true
    | cons d t => simpa using stop d rfl
  exact takeWhile_run all none

theorem head?_any_append {p : Char → Bool} {t : List Char} (h : ¬ t.head?.any p)
    (s : List Char) : (s ++ t).head?.any p = s.head?.any p := by
  cases s with
  | nil => simpa using h
  | cons c s => rfl

/-- A run that ends before `t` is the same before any other text that does not continue it. -/
theorem takeWhile_relocate {p : Char → Bool} {s t t' u : List Char}
    (h : (s ++ t).dropWhile p = u ++ t) (stop : u = [] → ¬ t'.head?.any p) :
    (s ++ t').takeWhile p = (s ++ t).takeWhile p ∧ (s ++ t').dropWhile p = u ++ t' := by
  have all := List.takeWhile_append_dropWhile (p := p) (l := s ++ t)
  have front := List.head?_dropWhile_not p (s ++ t)
  have inside : ∀ c ∈ (s ++ t).takeWhile p, p c := fun c hc => List.mem_takeWhile_imp hc
  rw [h, ← List.append_assoc] at all
  have split := List.append_cancel_right all
  have stays : ¬ (u ++ t').head?.any p := by
    cases u with
    | nil => exact stop rfl
    | cons c u =>
      rw [h] at front
      simpa using front
  generalize (s ++ t).takeWhile p = run at inside split
  rw [← split, List.append_assoc, List.takeWhile_append_of_pos inside,
    List.dropWhile_append_of_pos inside]
  have none := takeWhile_append_of_head stays []
  have rest := dropWhile_append_of_head stays []
  rw [List.nil_append] at none rest
  rw [none, rest]
  exact ⟨List.append_nil run, rfl⟩

theorem IsBreak.not_any {t : List Char} (h : IsBreak t) {p : Char → Bool}
    (hp : ∀ c, p c → isAlphanumeric c) : ¬ t.head?.any p := by
  cases t with
  | nil => exact Bool.false_ne_true
  | cons c t =>
    intro front
    exact (h c rfl).1 (hp c (by simpa using front))

end PrologSource
