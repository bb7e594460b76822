import PrologSource.Proofs.Lookahead.Quotation
import PrologSource.Proofs.Lookahead.Suffix
import PrologSource.Proofs.Reading

namespace PrologSource
variable {s t t' u : List Char}

namespace Suffix
variable {form : List Char → Option (Suffix × List Char)} {x : Suffix}

/-- A form reads the same after `s`, whether `t` or `t'` follows, unless it reads into `t`. -/
def Relocates (s t t' : List Char) (form : List Char → Option (Suffix × List Char)) : Prop :=
  (form (s ++ t) = none → form (s ++ t') = none) ∧
    ∀ x u, form (s ++ t) = some (x, u ++ t) → form (s ++ t') = some (x, u ++ t')

theorem relocates_of_none (h : form (s ++ t) = none) (h' : form (s ++ t') = none) :
    Relocates s t t' form := by
  constructor
  · intro _
    exact h'
  · intro x u found
    rw [h] at found
    cases found

theorem relocates_of_append (ht : IsBreak t) (ht' : IsBreak t')
    (law : ∀ t, IsBreak t → form (s ++ t) = (form s).map fun r => (r.1, r.2 ++ t)) :
    Relocates s t t' form := by
  have before := law t ht
  have before' := law t' ht'
  cases read : form s with
  | none =>
    rw [read] at before before'
    exact relocates_of_none before before'
  | some r =>
    rw [read, Option.map_some] at before before'
    constructor
    · intro none
      rw [before] at none
      cases none
    · intro x u found
      rw [before] at found
      obtain ⟨rfl, rest⟩ := Prod.mk.inj (Option.some.inj found)
      rw [before', List.append_cancel_right rest]

theorem relocates_code? (ht : IsBreak t) (ht' : IsBreak t') (nonempty : t ≠ []) :
    Relocates s t t' code? := by
  cases s with
  | nil => exact relocates_of_none (code?_break ht) (code?_break ht')
  | cons c s =>
    by_cases quote : c = '\''
    · constructor
      · intro none
        simp [code?, quote] at none
      · intro x u found
        rw [List.cons_append, code?, if_pos quote] at found
        obtain ⟨rfl, left⟩ := Prod.mk.inj (Option.some.inj found)
        rw [List.cons_append, code?, if_pos quote,
          readPieces_relocate (Prod.ext rfl left) nonempty ht']
    · apply relocates_of_none
      · simp [code?, quote]
      · simp [code?, quote]

theorem relocates_forms {lead : List Char} (ht : IsBreak t) (ht' : IsBreak t') (nonempty : t ≠ [])
    (hform : form ∈ forms lead) : Relocates s t t' form := by
  unfold forms at hform
  split at hform <;> simp only [List.mem_cons, List.not_mem_nil, or_false] at hform
  · rcases hform with rfl | rfl | rfl | rfl
    · exact relocates_of_append ht ht' fun _ h => special?_append h s
    · exact relocates_of_append ht ht' fun _ h => marked?_append h s
    · exact relocates_code? ht ht' nonempty
    · exact relocates_of_append ht ht' fun _ h => fraction?_append h s
  · rcases hform with rfl | rfl
    · exact relocates_of_append ht ht' fun _ h => based?_append h _ s
    · exact relocates_of_append ht ht' fun _ h => fraction?_append h s

theorem read_relocate {lead : List Char} (h : read lead (s ++ t) = (x, u ++ t)) (ht : IsBreak t)
    (ht' : IsBreak t') (nonempty : t ≠ []) : read lead (s ++ t') = (x, u ++ t') := by
  have all := fun form => @relocates_forms s t t' form lead ht ht' nonempty
  unfold read at h ⊢
  generalize forms lead = forms at all h
  induction forms with
  | nil =>
    obtain ⟨rfl, rest⟩ := Prod.mk.inj h
    rw [List.append_cancel_right rest]
    rfl
  | cons form forms ih =>
    obtain ⟨keeps_none, keeps_some⟩ := all form List.mem_cons_self
    rw [List.findSome?_cons] at h ⊢
    cases found : form (s ++ t) with
    | none =>
      rw [found] at h
      rw [keeps_none found]
      exact ih (fun form hform => all form (List.mem_cons_of_mem _ hform)) h
    | some r =>
      rw [found, Option.getD_some] at h
      rw [keeps_some x u (by rw [found, h])]
      rfl

end Suffix

theorem Numeral.read_relocate {n : Numeral} (h : Numeral.read (s ++ t) = (n, u ++ t))
    (ht : IsBreak t) (ht' : IsBreak t') (nonempty : t ≠ []) :
    Numeral.read (s ++ t') = (n, u ++ t') := by
  have digit := ht.not_any fun _ => isAlphanumeric_of_isDigit
  have digit' := ht'.not_any fun _ => isAlphanumeric_of_isDigit
  simp only [Numeral.read, takeWhile_append_of_head digit, dropWhile_append_of_head digit] at h
  obtain ⟨rfl, left⟩ := Prod.mk.inj h
  simp only [Numeral.read, takeWhile_append_of_head digit', dropWhile_append_of_head digit',
    Suffix.read_relocate (Prod.ext rfl left) ht ht' nonempty]

namespace Item
variable {i : Item} {c d : Char}

private theorem not_any_of_layout {p : Char → Bool} (hp : ∀ c, isLayout c → ¬ p c)
    (ht' : ∀ c ∈ t'.head?, isLayout c) : ¬ t'.head?.any p := by
  cases t' with
  | nil => exact Bool.false_ne_true
  | cons c t' => simpa using hp c (ht' c rfl)

private theorem endsClause_relocate (hd : beginsGap d) (ht' : ∀ c ∈ t'.head?, isLayout c)
    (slash : s = [] → d ≠ '/') : endsClause (s ++ t') = endsClause (s ++ d :: t) := by
  cases s with
  | cons e s => rfl
  | nil =>
    have before : endsClause (d :: t) = true := by
      rcases hd with layout | rfl | rfl
      · simp [endsClause, layout]
      · simp [endsClause]
      · exact absurd rfl (slash rfl)
    rw [List.nil_append, List.nil_append, before]
    cases t' with
    | nil => rfl
    | cons c t' => simp [endsClause, ht' c rfl]

private theorem readComment_relocate (t' : List Char)
    (h : readSymbol '/' ('*' :: (s ++ d :: t)) = (i, u ++ d :: t)) :
    readSymbol '/' ('*' :: (s ++ t')) = (i, u ++ t') := by
  rw [readSymbol, if_pos ⟨rfl, rfl⟩, List.tail_cons] at h ⊢
  split at h
  · rename_i body after found
    obtain ⟨rfl, rfl⟩ := Prod.mk.inj h
    have inside := close_not_infix_of_splitAtClose found
    have all := spelling_of_splitAtClose found
    rw [← List.cons_append, ← List.cons_append, ← List.append_assoc] at all
    rw [← List.append_cancel_right all, List.append_assoc, List.cons_append, List.cons_append,
      splitAtClose_append inside]
  · obtain ⟨-, none⟩ := Prod.mk.inj h
    simp at none

private theorem readSymbol_relocate (h : readSymbol c (s ++ d :: t) = (i, u ++ d :: t))
    (hd : beginsGap d) (ht' : ∀ c ∈ t'.head?, isLayout c) :
    readSymbol c (s ++ t') = (i, u ++ t') := by
  by_cases opening : c = '/' ∧ (s ++ d :: t).head? = some '*'
  · obtain ⟨rfl, star⟩ := opening
    cases s with
    | nil =>
      obtain rfl : d = '*' := by simpa using star
      exact absurd hd (by decide)
    | cons e s =>
      obtain rfl : e = '*' := by simpa using star
      exact readComment_relocate t' h
  have opening' : ¬ (c = '/' ∧ (s ++ t').head? = some '*') := by
    rintro ⟨slash, star⟩
    cases s with
    | nil => exact absurd (ht' _ star) (by decide)
    | cons e s => exact opening ⟨slash, star⟩
  rw [readSymbol, if_neg opening] at h
  rw [readSymbol, if_neg opening']
  split at h
  · rename_i stop
    obtain ⟨rfl, rest⟩ := Prod.mk.inj h
    have slash : s = [] → d ≠ '/' := by
      rintro rfl rfl
      exact absurd stop.2 Bool.false_ne_true
    have stop' : c = '.' ∧ endsClause (s ++ t') := by
      rwa [endsClause_relocate hd ht' slash]
    rw [if_pos stop', List.append_cancel_right rest]
  · rename_i stop
    obtain ⟨rfl, rest⟩ := Prod.mk.inj h
    -- An atom right before a slash would go on with it.
    have slash : s = [] → d ≠ '/' := by
      rintro rfl rfl
      have short := (List.dropWhile_sublist (l := t) isSymbol).length_le
      have long := congrArg List.length rest
      rw [List.nil_append, List.dropWhile_cons_of_pos (by decide)] at long
      simp only [List.length_append, List.length_cons] at long
      omega
    have stop' : ¬ (c = '.' ∧ endsClause (s ++ t')) := by
      rwa [endsClause_relocate hd ht' slash]
    have symbol : ¬ t'.head?.any isSymbol := by
      apply not_any_of_layout _ ht'
      intro e layout
      simp_all [isLayout, isSymbol]
    obtain ⟨run, left⟩ := takeWhile_relocate rest fun _ => symbol
    rw [if_neg stop', run, left]

private theorem readMark_relocate (h : readMark c (s ++ d :: t) = (i, u ++ d :: t))
    (ht' : ∀ c ∈ t'.head?, isLayout c) (hi : i.isGap → t' = []) :
    readMark c (s ++ t') = (i, u ++ t') := by
  unfold readMark at h ⊢
  split at h
  · rename_i comment
    obtain ⟨rfl, rest⟩ := Prod.mk.inj h
    have stop : ¬ t'.head?.any (· ≠ '\n') := by
      rw [hi rfl]
      exact Bool.false_ne_true
    obtain ⟨run, left⟩ := takeWhile_relocate rest fun _ => stop
    rw [if_pos comment, run, left]
  rename_i comment
  rw [if_neg comment]
  split at h
  · rename_i quote
    obtain ⟨rfl, rest⟩ := Prod.mk.inj h
    rw [if_pos quote,
      Quotation.read_relocate (Prod.ext rfl rest) (List.cons_ne_nil d t) (isBreak_of_layout ht')]
  rename_i quote
  rw [if_neg quote]
  split at h
  · rename_i quote
    obtain ⟨rfl, rest⟩ := Prod.mk.inj h
    rw [if_pos quote,
      Quotation.read_relocate (Prod.ext rfl rest) (List.cons_ne_nil d t) (isBreak_of_layout ht')]
  rename_i quote
  rw [if_neg quote]
  split at h
  · rename_i paren
    obtain ⟨rfl, rest⟩ := Prod.mk.inj h
    rw [if_pos paren, List.append_cancel_right rest]
  rename_i paren
  rw [if_neg paren]
  split at h
  · rename_i atom
    obtain ⟨rfl, rest⟩ := Prod.mk.inj h
    rw [if_pos atom, List.append_cancel_right rest]
  · rename_i atom
    obtain ⟨rfl, rest⟩ := Prod.mk.inj h
    rw [if_neg atom, List.append_cancel_right rest]

theorem read_relocate (h : read c (s ++ d :: t) = (i, u ++ d :: t)) (hd : beginsGap d)
    (ht' : ∀ c ∈ t'.head?, isLayout c) (hi : i.isGap → t' = []) :
    read c (s ++ t') = (i, u ++ t') := by
  have name : ¬ t'.head?.any isAlphanumeric :=
    (isBreak_of_layout ht').not_any fun _ hc => hc
  unfold read at h ⊢
  split at h
  · obtain ⟨rfl, rest⟩ := Prod.mk.inj h
    rw [List.append_cancel_right rest]
  · obtain ⟨rfl, rest⟩ := Prod.mk.inj h
    obtain ⟨run, left⟩ := takeWhile_relocate rest fun _ => name
    rw [run, left]
  · obtain ⟨rfl, rest⟩ := Prod.mk.inj h
    obtain ⟨run, left⟩ := takeWhile_relocate rest fun _ => name
    rw [run, left]
  · obtain ⟨rfl, rest⟩ := Prod.mk.inj h
    have same := Numeral.read_relocate (s := c :: s) (Prod.ext rfl rest) (hd.isBreak t)
      (isBreak_of_layout ht') (List.cons_ne_nil d t)
    rw [List.cons_append] at same
    rw [same]
    rfl
  · exact readSymbol_relocate h hd ht'
  · exact readMark_relocate h ht' hi

/-- An item that ends before a gap, or even earlier, is read as well with other layout in place of
the text from the gap on. If the item is not a lexeme, nothing must follow. -/
theorem Reads.relocate (h : Reads (s ++ d :: t) i (u ++ d :: t)) (hd : beginsGap d)
    (ht' : ∀ c ∈ t'.head?, isLayout c) (hi : i.isGap → t' = []) :
    Reads (s ++ t') i (u ++ t') := by
  have all := h.spelling_append
  have nonempty := h.spelling_ne_nil
  obtain ⟨c, tail, front, found⟩ := h
  rw [← List.append_assoc] at all
  have spelled := List.append_cancel_right all
  cases s with
  | nil => exact absurd (List.append_eq_nil_iff.1 spelled).1 nonempty
  | cons e s =>
    obtain ⟨rfl, rfl⟩ := List.cons.inj front
    exact ⟨e, s ++ t', rfl, read_relocate found hd ht' hi⟩

end Item

end PrologSource
