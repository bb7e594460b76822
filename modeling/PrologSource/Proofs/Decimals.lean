import Mathlib.Data.List.Basic
import PrologSource.Proofs.Lookahead.Break
import PrologSource.Text.Decimal

namespace PrologSource
variable {cs rest digits first last : List Char}

theorem digits?_append (h : IsDecimal digits) (stop : ¬ rest.head?.any isDigit) :
    digits? (digits ++ rest) = some (digits, rest) := by
  obtain ⟨run, left⟩ := takeWhile_run h.2 stop
  rw [digits?, run, left, if_neg h.1]

theorem of_digits? (h : digits? cs = some (digits, rest)) :
    IsDecimal digits ∧ cs = digits ++ rest := by
  unfold digits? at h
  split at h
  · cases h
  · rename_i nonempty
    cases h
    exact ⟨⟨nonempty, fun c hc => List.mem_takeWhile_imp hc⟩,
      List.takeWhile_append_dropWhile.symm⟩

theorem digitRange?_append (hf : IsDecimal first) (hl : IsDecimal last)
    (stop : ¬ rest.head?.any isDigit) :
    digitRange? (first ++ '-' :: (last ++ rest)) = some ((first, last), rest) := by
  have dash : digits? (first ++ '-' :: (last ++ rest)) = some (first, '-' :: (last ++ rest)) :=
    digits?_append hf Bool.false_ne_true
  have dash_front : ['-'].isPrefixOf? ('-' :: (last ++ rest)) = some (last ++ rest) :=
    List.isPrefixOf?_eq_some_iff_append_eq.2 rfl
  simp [digitRange?, dash, dash_front, digits?_append hl stop]

theorem of_digitRange? (h : digitRange? cs = some ((first, last), rest)) :
    IsDecimal first ∧ IsDecimal last ∧ cs = first ++ '-' :: (last ++ rest) := by
  simp only [digitRange?, Option.bind_eq_bind, Option.bind_eq_some_iff] at h
  obtain ⟨⟨first', behind⟩, hf, more, dash, ⟨last', rest'⟩, hl, same⟩ := h
  obtain ⟨⟨rfl, rfl⟩, rfl⟩ : (first' = first ∧ last' = last) ∧ rest' = rest := by simpa using same
  obtain ⟨decimal, rfl⟩ := of_digits? hf
  obtain ⟨decimal', rfl⟩ := of_digits? hl
  obtain rfl : ['-'] ++ (last' ++ rest') = behind :=
    List.isPrefixOf?_eq_some_iff_append_eq.1 dash
  exact ⟨decimal, decimal', rfl⟩

end PrologSource
