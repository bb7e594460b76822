import PrologSource.Lexeme.Suffix
import PrologSource.Proofs.Lookahead.Break

namespace PrologSource

variable {s t t' u : List Char}

/-- What is left after reading has `t` at its end if it is long enough. -/
theorem exists_eq_append {read rest : List Char} (all : read ++ rest = s ++ t)
    (long : t.length ≤ rest.length) : ∃ u, rest = u ++ t := by
  have ends : t <:+ s ++ t := List.suffix_append s t
  have rest_ends : rest <:+ s ++ t := all ▸ List.suffix_append read rest
  obtain ⟨u, same⟩ := List.suffix_of_suffix_length_le ends rest_ends long
  exact ⟨u, same.symm⟩

/-- A character that was read with more than `t` left stands before `t`. -/
theorem exists_cons_of_append {c : Char} {rest : List Char} (all : s ++ t = c :: rest)
    (long : t.length ≤ rest.length) : ∃ s₁, s = c :: s₁ ∧ s₁ ++ t = rest := by
  cases s with
  | nil =>
    rw [List.nil_append] at all
    rw [all, List.length_cons] at long
    omega
  | cons d s =>
    obtain ⟨rfl, tail⟩ := List.cons.inj all
    exact ⟨s, rfl, tail⟩

namespace Escape
variable {e : Escape}

theorem length_readCode_lt (make : List Char → Bool → Escape) {cs : List Char} (nonempty : cs ≠ []) :
    (readCode make cs).2.length < cs.length := by
  have short := (List.dropWhile_sublist (l := cs) (· ≠ '\\')).length_le
  have := List.length_pos_iff.2 nonempty
  unfold readCode
  split
  · exact this
  · rename_i found
    rw [found, List.length_cons] at short
    exact short

theorem length_readControl_le (cs : List Char) : (readControl cs).2.length ≤ cs.length := by
  unfold readControl
  split
  · exact Nat.le_refl _
  · split <;> simp

theorem length_read_lt {cs : List Char} (nonempty : cs ≠ []) :
    (read cs).2.length < cs.length := by
  unfold read
  split
  · exact absurd rfl nonempty
  · rename_i c rest
    have skipped := (List.dropWhile_sublist (l := rest) isLayout).length_le
    have control := length_readControl_le rest
    split
    · simp
    split
    · exact Nat.lt_succ_of_le control
    split
    · exact length_readCode_lt _ nonempty
    split
    · cases rest with
      | nil => simp [readCode]
      | cons d rest => exact Nat.lt_succ_of_lt (length_readCode_lt _ (List.cons_ne_nil d rest))
    split
    · exact Nat.lt_succ_of_le skipped
    · simp

theorem not_namesControl {c : Char} (ht : IsBreak t) (hc : t.head? = some c) :
    ¬ namesControl c := by
  obtain ⟨letter, other⟩ := ht c hc
  intro names
  simp only [namesControl, Bool.or_eq_true, decide_eq_true_eq] at names
  rcases names with (((rfl | rfl) | names) | rfl) | rfl
  · exact other (by decide)
  · exact other (by decide)
  · exact letter (by simp [isAlphanumeric, names])
  · exact other (by decide)
  · exact other (by decide)

private theorem readCode_relocate {make : List Char → Bool → Escape}
    (h : readCode make (s ++ t) = (e, u ++ t)) (nonempty : t ≠ []) (t' : List Char) :
    readCode make (s ++ t') = (e, u ++ t') := by
  unfold readCode at h
  split at h
  · obtain ⟨-, none⟩ := Prod.mk.inj h
    exact absurd (List.append_eq_nil_iff.1 none.symm).2 nonempty
  · rename_i b rest found
    obtain ⟨code, rfl⟩ := Prod.mk.inj h
    have stop : b :: u = [] → ¬ t'.head?.any (· ≠ '\\') := fun none => absurd none (by simp)
    obtain ⟨run, left⟩ := takeWhile_relocate found stop
    rw [readCode, left, ← code, run]
    rfl

private theorem readControl_relocate (h : readControl (s ++ t) = (e, u ++ t)) (nonempty : t ≠ [])
    (ht' : IsBreak t') : readControl (s ++ t') = (e, u ++ t') := by
  cases s with
  | nil =>
    cases t with
    | nil => exact absurd rfl nonempty
    | cons d t =>
      rw [List.nil_append, readControl] at h
      split at h
      · have := congrArg (List.length ∘ Prod.snd) h
        simp at this
        omega
      · obtain ⟨rfl, rest⟩ := Prod.mk.inj h
        obtain rfl : u = [] := List.self_eq_append_left.1 rest
        cases t' with
        | nil => rfl
        | cons d' t' =>
          rw [List.nil_append, readControl, if_neg (not_namesControl ht' rfl)]
  | cons d s =>
    rw [List.cons_append, readControl] at h ⊢
    split at h
    · rename_i names
      obtain ⟨rfl, rest⟩ := Prod.mk.inj h
      rw [if_pos names, List.append_cancel_right rest]
    · rename_i other
      obtain ⟨rfl, rest⟩ := Prod.mk.inj h
      rw [← List.cons_append] at rest
      rw [if_neg other, ← List.append_cancel_right rest, List.cons_append]

/-- An escape that ends where `t` begins must stand for a character. -/
theorem read_relocate (h : read (s ++ t) = (e, u ++ t)) (nonempty : t ≠ []) (ht' : IsBreak t')
    (hu : u = [] → e.meaning.isSome) : read (s ++ t') = (e, u ++ t') := by
  cases s with
  | nil =>
    have short := length_read_lt nonempty
    rw [List.nil_append] at h
    rw [h, List.length_append] at short
    omega
  | cons c s =>
    rw [List.cons_append, read] at h ⊢
    split at h
    · rename_i layout
      obtain ⟨rfl, rest⟩ := Prod.mk.inj h
      rw [if_pos layout, List.append_cancel_right rest]
    rename_i layout
    rw [if_neg layout]
    split at h
    · rename_i caret
      rw [if_pos caret]
      exact readControl_relocate h nonempty ht'
    rename_i caret
    rw [if_neg caret]
    split at h
    · rename_i octal
      rw [if_pos octal]
      exact readCode_relocate (s := c :: s) h nonempty t'
    rename_i octal
    rw [if_neg octal]
    split at h
    · rename_i hex
      rw [if_pos hex]
      exact readCode_relocate h nonempty t'
    rename_i hex
    rw [if_neg hex]
    split at h
    · rename_i skip
      obtain ⟨rfl, rest⟩ := Prod.mk.inj h
      have stop : u = [] → ¬ t'.head?.any isLayout := by
        intro none
        cases hu none
      obtain ⟨run, left⟩ := takeWhile_relocate rest stop
      rw [if_pos skip, run, left]
    · rename_i skip
      obtain ⟨rfl, rest⟩ := Prod.mk.inj h
      rw [if_neg skip, List.append_cancel_right rest]

/-- An escape with more than `t` left behind it ends before `t`. -/
theorem exists_read_relocate (nonempty : t ≠ []) (ht' : IsBreak t')
    (more : t.length < (read (s ++ t)).2.length) :
    ∃ v, (read (s ++ t)).2 = v ++ t ∧ read (s ++ t') = ((read (s ++ t)).1, v ++ t') := by
  obtain ⟨v, behind⟩ := exists_eq_append (spelling_read (s ++ t)) (Nat.le_of_lt more)
  have stands : v = [] → (read (s ++ t)).1.meaning.isSome := by
    rintro rfl
    rw [behind, List.nil_append] at more
    exact absurd more (Nat.lt_irrefl _)
  exact ⟨v, behind, read_relocate (Prod.ext rfl behind) nonempty ht' stands⟩

end Escape

namespace Suffix
variable {pieces : List Piece}

theorem length_readPieces_lt {cs : List Char} (nonempty : cs ≠ []) :
    (readPieces cs).2.length < cs.length := by
  fun_induction readPieces cs with
  | case1 => exact absurd rfl nonempty
  | case2 rest => exact Nat.lt_succ_of_le (Escape.length_read_le rest)
  | case3 rest _ ih =>
    have first := Escape.length_read_le rest
    by_cases none : (Escape.read rest).2 = []
    · simp [none, readPieces]
    · have := ih none
      simp only [List.length_cons]
      omega
  | case4 c rest =>
    simp only [List.length_tail, List.length_cons]
    omega
  | case5 => exact Nat.lt_succ_self _

theorem readPieces_relocate (h : readPieces (s ++ t) = (pieces, u ++ t)) (nonempty : t ≠ [])
    (ht' : IsBreak t') : readPieces (s ++ t') = (pieces, u ++ t') := by
  generalize all : s ++ t = cs at h
  fun_induction readPieces cs generalizing s pieces with
  | case1 => exact absurd (List.append_eq_nil_iff.1 all).2 nonempty
  | case2 rest stands =>
    obtain ⟨rfl, left⟩ := Prod.mk.inj h
    have long := Escape.length_read_le rest
    rw [left, List.length_append] at long
    obtain ⟨s₁, rfl, rfl⟩ := exists_cons_of_append all (by omega)
    have same := Escape.read_relocate (Prod.ext rfl left) nonempty ht' fun _ => stands
    rw [List.cons_append, readPieces, if_pos rfl, same, if_pos stands]
  | case3 rest nothing ih =>
    obtain ⟨rfl, left⟩ := Prod.mk.inj h
    have long := Escape.length_read_le rest
    -- More is read behind the escape, so that it ends before `t`.
    have goesOn : (Escape.read rest).2 ≠ [] := by
      intro none
      rw [none, readPieces] at left
      exact nonempty (List.append_eq_nil_iff.1 left.symm).2
    have inner := length_readPieces_lt goesOn
    rw [left, List.length_append] at inner
    obtain ⟨s₁, rfl, rfl⟩ := exists_cons_of_append all (by omega)
    have longer : t.length < (Escape.read (s₁ ++ t)).2.length := by omega
    obtain ⟨v, behind, same⟩ := Escape.exists_read_relocate nonempty ht' longer
    have rest := ih behind.symm (Prod.ext rfl left)
    rw [List.cons_append, readPieces, if_pos rfl, same, if_neg nothing, rest]
  | case4 c rest plain both =>
    obtain ⟨rfl, left⟩ := Prod.mk.inj h
    obtain ⟨rfl, two⟩ := both
    obtain ⟨tail, rfl⟩ := List.head?_eq_some_iff.1 two
    rw [List.tail_cons] at left
    rw [left, ← List.cons_append, ← List.cons_append] at all
    rw [List.append_cancel_right all, List.cons_append, List.cons_append, readPieces,
      if_neg plain, if_pos ⟨rfl, rfl⟩, List.tail_cons]
  | case5 c rest plain both =>
    obtain ⟨rfl, left⟩ := Prod.mk.inj h
    rw [left, ← List.cons_append] at all
    have apart : ¬ (c = '\'' ∧ (u ++ t').head? = some '\'') := by
      rintro ⟨quote, two⟩
      cases u with
      | nil => exact (ht' _ two).2 (by decide)
      | cons d u => exact both ⟨quote, by rw [left]; exact two⟩
    rw [List.append_cancel_right all, List.cons_append, readPieces, if_neg plain, if_neg apart]

end Suffix

namespace Quotation
variable {q : Quote} {x : Quotation}

theorem length_read_lt {cs : List Char} (nonempty : cs ≠ []) :
    (read q cs).2.length < cs.length := by
  fun_induction read q cs with
  | case1 => exact absurd rfl nonempty
  | case2 => exact Nat.zero_lt_one
  | case3 more =>
    have := length_read_le q more
    simp only [List.length_cons]
    omega
  | case4 => simp
  | case5 rest =>
    have first := Escape.length_read_le rest
    have := length_read_le q (Escape.read rest).2
    simp only [List.length_cons]
    omega
  | case6 _ rest =>
    have := length_read_le q rest
    simp only [List.length_cons]
    omega

/-! What is read at the front of quoted text. -/

theorem read_doubled (q : Quote) (cs : List Char) : read q (q.char :: q.char :: cs) =
    ((read q cs).1.push .doubled, (read q cs).2) := by
  rw [read.eq_def]
  simp only [if_true]

theorem read_backslash (q : Quote) (cs : List Char) : read q ('\\' :: cs) =
    ((read q (Escape.read cs).2).1.push (.escape (Escape.read cs).1),
      (read q (Escape.read cs).2).2) := by
  have apart : '\\' ≠ q.char := by cases q <;> decide
  rw [read.eq_def]
  simp only [if_neg apart, if_true]

theorem read_raw {c : Char} (mark : c ≠ q.char) (plain : c ≠ '\\') (cs : List Char) :
    read q (c :: cs) = ((read q cs).1.push (.raw c), (read q cs).2) := by
  rw [read.eq_def]
  simp only [if_neg mark, if_neg plain]

theorem read_close {rest : List Char} (apart : rest.head? ≠ some q.char) :
    read q (q.char :: rest) = (⟨q, [], true⟩, rest) := by
  rw [read.eq_def]
  cases rest with
  | nil => simp
  | cons d rest =>
    have other : d ≠ q.char := by simpa using apart
    simp [other]

theorem read_relocate (h : read q (s ++ t) = (x, u ++ t)) (nonempty : t ≠ []) (ht' : IsBreak t') :
    read q (s ++ t') = (x, u ++ t') := by
  generalize all : s ++ t = cs at h
  fun_induction read q cs generalizing s x with
  | case1 => exact absurd (List.append_eq_nil_iff.1 all).2 nonempty
  | case2 =>
    obtain ⟨-, none⟩ := Prod.mk.inj h
    exact absurd (List.append_eq_nil_iff.1 none.symm).2 nonempty
  | case3 more ih =>
    obtain ⟨rfl, left⟩ := Prod.mk.inj h
    have long := length_read_le q more
    rw [left, List.length_append] at long
    obtain ⟨s₁, rfl, second⟩ := exists_cons_of_append all (by rw [List.length_cons]; omega)
    obtain ⟨s₂, rfl, tail⟩ := exists_cons_of_append second (by omega)
    rw [List.cons_append, List.cons_append, read_doubled, ih tail (Prod.ext rfl left)]
  | case4 d more apart =>
    obtain ⟨rfl, left⟩ := Prod.mk.inj h
    rw [left, ← List.cons_append] at all
    rw [List.append_cancel_right all, List.cons_append]
    apply read_close
    intro two
    cases u with
    | nil => cases q <;> exact (ht' _ two).2 (by decide)
    | cons e u =>
      obtain ⟨rfl, -⟩ := List.cons.inj left
      exact apart (Option.some.inj two)
  | case5 more apart ih =>
    obtain ⟨rfl, left⟩ := Prod.mk.inj h
    have long := Escape.length_read_le more
    -- The closing mark, or more, is read behind the escape, so that it ends before `t`.
    have goesOn : (Escape.read more).2 ≠ [] := by
      intro none
      rw [none, read] at left
      exact nonempty (List.append_eq_nil_iff.1 left.symm).2
    have inner := length_read_lt (q := q) goesOn
    rw [left, List.length_append] at inner
    obtain ⟨s₁, rfl, rfl⟩ := exists_cons_of_append all (by omega)
    have longer : t.length < (Escape.read (s₁ ++ t)).2.length := by omega
    obtain ⟨v, behind, same⟩ := Escape.exists_read_relocate nonempty ht' longer
    have rest := ih behind.symm (Prod.ext rfl left)
    rw [List.cons_append, read_backslash, same, rest]
  | case6 d more apart plain ih =>
    obtain ⟨rfl, left⟩ := Prod.mk.inj h
    have long := length_read_le q more
    rw [left, List.length_append] at long
    obtain ⟨s₁, rfl, tail⟩ := exists_cons_of_append all (by omega)
    rw [List.cons_append, read_raw apart plain, ih tail (Prod.ext rfl left)]

end Quotation

end PrologSource
