import PrologSource.Text.Lines

namespace PrologSource
variable {cs a b : List Char} {n m : Nat}

section sequences
variable {α : Type} [DecidableEq α] {newline ret : α}

theorem linesBy_ne_nil {cs : List α} (h : cs ≠ []) : linesBy newline ret cs ≠ [] := by
  induction cs with
  | nil => exact absurd rfl h
  | cons c cs ih =>
    rw [linesBy]
    split
    · exact List.cons_ne_nil _ _
    split
    · rename_i before
      apply ih
      rintro rfl
      cases before.2
    split <;> exact List.cons_ne_nil _ _

/-- Lines that are all ended do not change with what follows them. -/
theorem linesBy_append {a : List α} (ends : a = [] ∨ a.getLast? = some newline) (b : List α) :
    linesBy newline ret (a ++ b) = linesBy newline ret a ++ linesBy newline ret b := by
  induction a with
  | nil => rfl
  | cons c a ih =>
    have last : (c :: a).getLast? = some newline := ends.resolve_left (List.cons_ne_nil c a)
    cases a with
    | nil =>
      obtain rfl : c = newline := Option.some.inj last
      simp [linesBy]
    | cons d a =>
      have step := ih (.inr last)
      have more : linesBy newline ret (d :: a) ≠ [] := linesBy_ne_nil (List.cons_ne_nil d a)
      rw [List.cons_append, linesBy, linesBy, step, List.cons_append, List.head?_cons,
        List.head?_cons]
      split
      · rfl
      split
      · rfl
      cases lines : linesBy newline ret (d :: a) with
      | nil => exact absurd lines more
      | cons line rest => rfl

end sequences

/-- The first line of a text runs up to the first newline, without a return right before it. -/
theorem textLines_line (h : '\n' ∉ a) (b : List Char) : textLines (a ++ '\n' :: b) =
    (if a.getLast? = some '\r' then a.dropLast else a) :: textLines b := by
  induction a with
  | nil => rfl
  | cons c a ih =>
    rw [List.mem_cons, not_or] at h
    obtain ⟨newline, tail⟩ := h
    have step := ih tail
    unfold textLines at step ⊢
    rw [List.cons_append, linesBy, if_neg (Ne.symm newline)]
    cases a with
    | nil => by_cases ret : c = '\r' <;> simp_all [linesBy]
    | cons d a =>
      have inner : d ≠ '\n' := fun same => tail (same ▸ List.mem_cons_self)
      have other : ¬ (c = '\r' ∧ (d :: a ++ '\n' :: b).head? = some '\n') := by simp [inner]
      rw [if_neg other, step, List.getLast?_cons_cons, List.dropLast_cons_cons]
      by_cases ret : (d :: a).getLast? = some '\r'
      · rw [if_pos ret, if_pos ret]
      · rw [if_neg ret, if_neg ret]

theorem textLines_of_not_mem {cs : List Char} (h : '\n' ∉ cs) (nonempty : cs ≠ []) :
    textLines cs = [cs] := by
  induction cs with
  | nil => exact absurd rfl nonempty
  | cons c cs ih =>
    rw [List.mem_cons, not_or] at h
    obtain ⟨newline, tail⟩ := h
    unfold textLines at ih ⊢
    rw [linesBy, if_neg (Ne.symm newline)]
    cases cs with
    | nil => simp [linesBy]
    | cons d cs =>
      have inner : d ≠ '\n' := fun same => tail (same ▸ List.mem_cons_self)
      rw [if_neg (by simp [inner]), ih tail (List.cons_ne_nil d cs)]

theorem infix_of_mem_textLines {cs line : List Char} (h : line ∈ textLines cs) : line <:+: cs := by
  by_cases more : '\n' ∈ cs
  · obtain ⟨a, b, rfl, first⟩ := List.eq_append_cons_of_mem more
    have shorter : b.length < (a ++ '\n' :: b).length := by simp +arith
    rw [textLines_line first] at h
    rcases List.mem_cons.1 h with rfl | later
    · refine List.IsInfix.trans ?_ (List.prefix_append a _).isInfix
      split
      · exact (List.dropLast_prefix a).isInfix
      · exact List.infix_rfl
    · refine (infix_of_mem_textLines later).trans (List.IsSuffix.isInfix ?_)
      exact (List.suffix_cons '\n' b).trans (List.suffix_append a _)
  · by_cases empty : cs = []
    · subst empty
      cases h
    · rw [textLines_of_not_mem more empty] at h
      obtain rfl := List.mem_singleton.1 h
      exact List.infix_rfl
termination_by cs.length

/-- Texts that each end with a newline are read line by line. -/
theorem textLines_flatMap {α : Type} {f : α → List Char} {xs : List α}
    (h : ∀ x ∈ xs, '\n' ∉ f x ∧ (f x).getLast? ≠ some '\r') :
    textLines (xs.flatMap fun x => f x ++ ['\n']) = xs.map f := by
  induction xs with
  | nil => rfl
  | cons x xs ih =>
    obtain ⟨newline, ret⟩ := h x List.mem_cons_self
    rw [List.flatMap_cons, List.append_assoc, List.singleton_append, textLines_line newline,
      if_neg ret, List.map_cons, ih fun y hy => h y (List.mem_cons_of_mem x hy)]

theorem textLines_newline (rest : List Char) : textLines ('\n' :: rest) = [] :: textLines rest :=
  rfl

theorem textLines_cons {c : Char} (newline : c ≠ '\n') (ret : c ≠ '\r') (rest : List Char) :
    textLines (c :: rest) = match textLines rest with
      | [] => [[c]]
      | line :: more => (c :: line) :: more := by
  simp only [textLines, linesBy, if_neg newline, ret, false_and, if_false]
  cases linesBy '\n' '\r' rest <;> rfl

theorem length_textLines (h : '\r' ∉ a) :
    (textLines (a ++ ['\n'])).length = a.count '\n' + 1 := by
  induction a with
  | nil => rfl
  | cons c a ih =>
    rw [List.mem_cons, not_or] at h
    obtain ⟨ret, tail⟩ := h
    have step := ih tail
    by_cases newline : c = '\n'
    · subst newline
      rw [List.cons_append, textLines_newline, List.length_cons, step, List.count_cons_self]
    · rw [List.cons_append, textLines_cons newline (Ne.symm ret), List.count_cons_of_ne newline]
      cases lines : textLines (a ++ ['\n']) with
      | nil => simp [lines] at step
      | cons line more => simpa [lines] using step

/-- A newline cuts the lines in two. -/
theorem textLines_append (a b : List Char) :
    textLines (a ++ '\n' :: b) = textLines (a ++ ['\n']) ++ textLines b := by
  rw [List.append_cons]
  exact linesBy_append (.inr List.getLast?_concat) b

/-- Lines with newlines between them are the text again, but for the newline at its end. -/
theorem intercalate_textLines (h : '\r' ∉ a) :
    List.intercalate ['\n'] (textLines (a ++ ['\n'])) = a := by
  induction a with
  | nil => rfl
  | cons c a ih =>
    rw [List.mem_cons, not_or] at h
    obtain ⟨ret, tail⟩ := h
    have step := ih tail
    have some_line := length_textLines tail
    cases lines : textLines (a ++ ['\n']) with
    | nil => simp [lines] at some_line
    | cons line more =>
      rw [lines] at step
      by_cases newline : c = '\n'
      · subst newline
        rw [List.cons_append, textLines_newline, lines, List.intercalate_cons_cons, step]
        rfl
      · rw [List.cons_append, textLines_cons newline (Ne.symm ret), lines,
          List.intercalate_cons_cons_left, step]

/-- A last line that no newline ends counts like one with a newline. -/
theorem textLines_unfinished (h : '\r' ∉ cs) (nonempty : cs ≠ [])
    (last : cs.getLast? ≠ some '\n') :
    textLines (cs ++ ['\n']) = textLines cs := by
  induction cs with
  | nil => exact absurd rfl nonempty
  | cons c cs ih =>
    rw [List.mem_cons, not_or] at h
    obtain ⟨ret, tail⟩ := h
    cases cs with
    | nil =>
      have newline : c ≠ '\n' := by simpa using last
      rw [List.singleton_append, textLines_cons newline (Ne.symm ret),
        textLines_cons newline (Ne.symm ret)]
      rfl
    | cons d cs =>
      have step := ih tail (List.cons_ne_nil d cs) (by simpa using last)
      by_cases newline : c = '\n'
      · subst newline
        rw [List.cons_append, textLines_newline, step, textLines_newline]
      · rw [List.cons_append, textLines_cons newline (Ne.symm ret), step,
          textLines_cons newline (Ne.symm ret)]

theorem length_textLines_le (h : '\r' ∉ cs) : (textLines cs).length ≤ cs.count '\n' + 1 := by
  by_cases nonempty : cs = []
  · subst nonempty
    exact Nat.zero_le _
  by_cases last : cs.getLast? = some '\n'
  · obtain ⟨a, rfl⟩ := List.getLast?_eq_some_iff.1 last
    rw [List.mem_append, not_or] at h
    rw [length_textLines h.1, List.count_append]
    exact Nat.le_add_right _ _
  · have length := length_textLines h
    rw [textLines_unfinished h nonempty last] at length
    exact Nat.le_of_eq length

theorem exists_newline (h : n < cs.count '\n') :
    ∃ a b, cs = a ++ '\n' :: b ∧ a.count '\n' = n := by
  induction cs generalizing n with
  | nil => exact absurd h (Nat.not_lt_zero n)
  | cons c cs ih =>
    by_cases newline : c = '\n'
    · subst newline
      cases n with
      | zero => exact ⟨[], cs, rfl, rfl⟩
      | succ n =>
        rw [List.count_cons_self] at h
        obtain ⟨a, b, rfl, count⟩ := ih (Nat.lt_of_succ_lt_succ h)
        exact ⟨'\n' :: a, b, rfl, by rw [List.count_cons_self, count]⟩
    · rw [List.count_cons_of_ne newline] at h
      obtain ⟨a, b, rfl, count⟩ := ih h
      exact ⟨c :: a, b, rfl, by rw [List.count_cons_of_ne newline, count]⟩

def StandsFrom (n : Nat) (b cs : List Char) : Prop :=
  n = 0 ∧ cs = b ∨ ∃ a, cs = a ++ '\n' :: b ∧ a.count '\n' + 1 = n

/-- The text `a` is what stands before line `m`, without the newline that ends it. -/
def StandsBefore (m : Nat) (a cs : List Char) : Prop :=
  cs = a ∧ cs.count '\n' < m ∨
    ∃ b, cs = a ++ '\n' :: b ∧ (a.count '\n' + 1 = m ∨ b = [] ∧ a.count '\n' + 1 < m)

theorem drop_textLines (h : '\r' ∉ cs) (n : Nat) :
    cs.count '\n' < n ∧ (textLines cs).drop n = [] ∨
      ∃ b, StandsFrom n b cs ∧ (textLines cs).drop n = textLines b := by
  cases n with
  | zero => exact .inr ⟨cs, .inl ⟨rfl, rfl⟩, rfl⟩
  | succ n =>
    by_cases short : cs.count '\n' < n + 1
    · have := length_textLines_le h
      exact .inl ⟨short, List.drop_eq_nil_of_le (by omega)⟩
    · obtain ⟨a, b, rfl, count⟩ := exists_newline (Nat.not_lt.1 short)
      rw [List.mem_append, not_or] at h
      have first := length_textLines h.1
      refine .inr ⟨b, .inr ⟨a, rfl, by rw [count]⟩, ?_⟩
      rw [textLines_append, List.drop_left' (by rw [first, count])]

theorem intercalate_take_textLines (h : '\r' ∉ cs) {m : Nat} (hm : 0 < m) :
    ∃ a, StandsBefore m a cs ∧ List.intercalate ['\n'] ((textLines cs).take m) = a := by
  by_cases short : cs.count '\n' < m
  · have bound := length_textLines_le h
    rw [List.take_of_length_le (by omega)]
    by_cases nonempty : cs = []
    · subst nonempty
      exact ⟨[], .inl ⟨rfl, hm⟩, rfl⟩
    by_cases last : cs.getLast? = some '\n'
    · obtain ⟨a, rfl⟩ := List.getLast?_eq_some_iff.1 last
      rw [List.mem_append, not_or] at h
      rw [List.count_append, List.count_singleton_self] at short
      exact ⟨a, .inr ⟨[], rfl, .inr ⟨rfl, short⟩⟩, intercalate_textLines h.1⟩
    · refine ⟨cs, .inl ⟨rfl, short⟩, ?_⟩
      rw [← textLines_unfinished h nonempty last, intercalate_textLines h]
  · have inside : m - 1 < cs.count '\n' := by omega
    obtain ⟨a, b, rfl, count⟩ := exists_newline inside
    rw [List.mem_append, not_or] at h
    have first := length_textLines h.1
    refine ⟨a, .inr ⟨b, rfl, .inl (by omega)⟩, ?_⟩
    rw [textLines_append, List.take_left' (by omega), intercalate_textLines h.1]

end PrologSource
