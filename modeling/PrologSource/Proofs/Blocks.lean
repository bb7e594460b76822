import Mathlib.Data.List.Find
import Mathlib.Data.List.Infix
import PrologSource.Message.Diagnostic
import PrologSource.Proofs.Lookahead.Break

namespace PrologSource

/-- A word does not reach across a character that it does not hold. -/
theorem prefix_append_cons {word : List Char} {c : Char} (h : c ∉ word) (u w : List Char) :
    word <+: u ++ c :: w ↔ word <+: u := by
  induction u generalizing word with
  | nil =>
    cases word with
    | nil => simp
    | cons d word =>
      rw [List.mem_cons, not_or] at h
      simp [List.cons_prefix_cons, Ne.symm h.1]
  | cons e u ih =>
    cases word with
    | nil => simp
    | cons d word =>
      rw [List.mem_cons, not_or] at h
      rw [List.cons_append, List.cons_prefix_cons, List.cons_prefix_cons, ih h.2]

theorem isPrefixOf_append_cons {word : List Char} {c : Char} (h : c ∉ word) (u w : List Char) :
    word.isPrefixOf (u ++ c :: w) = word.isPrefixOf u := by
  rw [Bool.eq_iff_iff, List.isPrefixOf_iff_prefix, List.isPrefixOf_iff_prefix,
    prefix_append_cons h]

namespace Keyword

theorem brace_not_mem_text (k : Keyword) : '{' ∉ k.text ∧ '}' ∉ k.text := by
  cases k <;> decide

theorem not_brace_of_mem_text {k : Keyword} {c : Char} (h : c ∈ k.text) :
    ¬ (c = '{' ∨ c = '}') := by
  rintro (rfl | rfl)
  · exact k.brace_not_mem_text.1 h
  · exact k.brace_not_mem_text.2 h

theorem isWordChar_of_mem_text {k : Keyword} {c : Char} (h : c ∈ k.text) : isWordChar c := by
  have letters : ∀ k ∈ all, k.text.all isWordChar := by decide
  exact List.all_eq_true.1 (letters k (by cases k <;> decide)) c h

/-- No keyword begins with another. -/
theorem eq_of_prefix_text {k k' : Keyword} (h : k'.text <+: k.text) : k' = k := by
  revert h
  cases k <;> cases k' <;> decide

/-- At one place only one keyword is a word of its own. -/
theorem eq_of_words {k k' : Keyword} {y y' : List Char} (h : k.text ++ y = k'.text ++ y')
    (hy : ¬ y.head?.any isWordChar) (hy' : ¬ y'.head?.any isWordChar) : k = k' := by
  have run := (takeWhile_run (fun c => isWordChar_of_mem_text (k := k)) hy).1
  have run' := (takeWhile_run (fun c => isWordChar_of_mem_text (k := k')) hy').1
  rw [h, run'] at run
  exact eq_of_prefix_text (run ▸ List.prefix_rfl)

theorem at?_text (k : Keyword) {before : Char} {y : List Char} (hb : ¬ isWordChar before)
    (hy : ¬ y.head?.any isWordChar) : at? before (k.text ++ y) = some k := by
  rw [at?, if_neg hb]
  cases found : all.find? fun k' => k'.text.isPrefixOf (k.text ++ y) &&
      !((k.text ++ y).drop k'.text.length).head?.any isWordChar with
  | none =>
    have absent := List.find?_eq_none.1 found k (by cases k <;> decide)
    simp [hy] at absent
  | some k' =>
    have fits := List.find?_some found
    rw [Bool.and_eq_true, List.isPrefixOf_iff_prefix] at fits
    obtain ⟨⟨y', same⟩, stop⟩ := fits
    rw [← same, List.drop_left] at stop
    rw [eq_of_words same (by simpa using stop) hy]

theorem at?_brace {c : Char} (hc : c = '{' ∨ c = '}') (before : Char) (u w : List Char) :
    at? before (u ++ c :: w) = at? before u := by
  have apart (k : Keyword) : c ∉ k.text := by
    rcases hc with rfl | rfl
    · exact k.brace_not_mem_text.1
    · exact k.brace_not_mem_text.2
  have stop : isWordChar c = false := by rcases hc with rfl | rfl <;> decide
  have same : ∀ k ∈ all,
      (k.text.isPrefixOf (u ++ c :: w) &&
        !((u ++ c :: w).drop k.text.length).head?.any isWordChar) =
      (k.text.isPrefixOf u && !(u.drop k.text.length).head?.any isWordChar) := by
    intro k _
    rw [isPrefixOf_append_cons (apart k)]
    cases front : k.text.isPrefixOf u with
    | false => rfl
    | true =>
      have within := (List.isPrefixOf_iff_prefix.1 front).length_le
      rw [List.drop_append_of_le_length within, List.head?_append]
      cases (u.drop k.text.length).head? with
      | none => simp [stop]
      | some d => rfl
  unfold at?
  rw [List.find?_congr same]

/-- Only the text before the next brace is searched for a keyword. -/
theorem first?_brace {c : Char} (hc : c = '{' ∨ c = '}') (before : Char) (u w : List Char) :
    first? before (u ++ c :: w) = first? before u := by
  induction u generalizing before with
  | nil => rw [List.nil_append, first?, first?, if_pos hc]
  | cons d u ih =>
    have front := at?_brace hc before (d :: u) w
    rw [List.cons_append] at front
    rw [List.cons_append, first?, first?, front, ih]

theorem prefix_of_at? {before : Char} {cs : List Char} {k : Keyword}
    (h : at? before cs = some k) : k.text <+: cs := by
  unfold at? at h
  split at h
  · cases h
  · have fits := List.find?_some h
    rw [Bool.and_eq_true, List.isPrefixOf_iff_prefix] at fits
    exact fits.1

/-- No brace stands before the keyword that is found. -/
theorem of_first? {before : Char} {cs : List Char} {k : Keyword}
    (h : first? before cs = some k) :
    ∃ x y, cs = x ++ (k.text ++ y) ∧ '{' ∉ x ∧ '}' ∉ x := by
  induction cs generalizing before with
  | nil => cases h
  | cons c cs ih =>
    rw [first?] at h
    split at h
    · cases h
    · rename_i other
      rw [not_or] at other
      split at h
      · rename_i found
        cases h
        obtain ⟨y, split⟩ := prefix_of_at? found
        exact ⟨[], y, split.symm, List.not_mem_nil, List.not_mem_nil⟩
      · obtain ⟨x, y, rfl, opening, closing⟩ := ih h
        refine ⟨c :: x, y, rfl, ?_, ?_⟩
        · rw [List.mem_cons, not_or]
          exact ⟨Ne.symm other.1, opening⟩
        · rw [List.mem_cons, not_or]
          exact ⟨Ne.symm other.2, closing⟩

end Keyword

namespace Block
variable {a u : List Char}

/-- A block ends at the first closing brace, and its keyword stands before it. -/
theorem read?_close (h : '}' ∉ u) (w : List Char) :
    read? (u ++ '}' :: w) = (Keyword.first? '{' u).map fun k => (⟨k, u⟩, w) := by
  obtain ⟨run, left⟩ := takeWhile_ne_run (t := '}' :: w) h (by simp)
  rw [read?, run, left, Keyword.first?_brace (.inr rfl)]
  cases Keyword.first? '{' u <;> rfl

/-- A block that is read holds no closing brace, and its keyword is the first in it. -/
theorem of_read? {b : Block} {rest : List Char} (h : read? a = some (b, rest)) :
    '}' ∉ b.body ∧ Keyword.first? '{' b.body = some b.keyword := by
  have spelled := spelling_of_read? h
  rw [spelling, List.cons_append, List.append_assoc] at spelled
  have close : '}' ∈ a := by
    rw [← (List.cons.inj spelled).2]
    simp
  obtain ⟨u, w, rfl, first⟩ := List.eq_append_cons_of_mem close
  rw [read?_close first, Option.map_eq_some_iff] at h
  obtain ⟨k, found, same⟩ := h
  cases same
  exact ⟨first, found⟩

/-- What stands behind a closing brace is not read. -/
theorem read?_append (h : '}' ∈ a) (b : List Char) :
    read? (a ++ b) = (read? a).map fun r => (r.1, r.2 ++ b) := by
  obtain ⟨u, w, rfl, first⟩ := List.eq_append_cons_of_mem h
  rw [List.append_assoc, List.cons_append, read?_close first, read?_close first, Option.map_map]
  rfl

/-- No opening brace stands behind the last closing one, and none at all where there is no closing
brace. -/
def IsSettled (cs : List Char) : Prop := ∀ v, v <:+ cs → '}' ∉ v → '{' ∉ v

instance (cs : List Char) : Decidable (IsSettled cs) :=
  decidable_of_iff (∀ v ∈ cs.tails, '}' ∉ v → '{' ∉ v) (by simp [IsSettled])

theorem IsSettled.tail {c : Char} (h : IsSettled (c :: a)) : IsSettled a :=
  fun v hv => h v (hv.trans (List.suffix_cons c a))

theorem IsSettled.close_mem (h : IsSettled ('{' :: a)) : '}' ∈ a := by
  by_contra absent
  exact h ('{' :: a) List.suffix_rfl (by simp [absent]) List.mem_cons_self

theorem IsSettled.of_append {b : List Char} (h : IsSettled (b ++ a)) : IsSettled a :=
  fun v hv => h v (hv.trans (List.suffix_append b a))

theorem isSettled_of_not_mem (h : '{' ∉ a) : IsSettled a :=
  fun _ hv _ mem => h (hv.subset mem)

/-- A text that ends with a closing brace is settled. -/
theorem isSettled_concat (a : List Char) : IsSettled (a ++ ['}']) := by
  intro v hv none
  rcases List.suffix_concat_iff.1 hv with rfl | ⟨t, rfl, -⟩
  · exact List.not_mem_nil
  · exact absurd (List.mem_append_right t List.mem_cons_self) none

/-! How the blocks of a text are found. -/

theorem ofText_of_read? {b : Block} {rest : List Char} (h : read? a = some (b, rest)) :
    ofText ('{' :: a) = b :: ofText rest := by
  rw [ofText, if_pos rfl]
  split
  · rename_i found
    rw [h] at found
    cases found
    rfl
  · rename_i none
    rw [h] at none
    cases none

theorem ofText_of_read?_eq_none (h : read? a = none) : ofText ('{' :: a) = ofText a := by
  rw [ofText, if_pos rfl]
  split
  · rename_i found
    rw [h] at found
    cases found
  · rfl

theorem ofText_cons {c : Char} (h : c ≠ '{') (a : List Char) : ofText (c :: a) = ofText a := by
  rw [ofText, if_neg h]

theorem ofText_of_not_mem (h : '{' ∉ a) : ofText a = [] := by
  induction a with
  | nil => rw [ofText]
  | cons c a ih =>
    rw [List.mem_cons, not_or] at h
    rw [ofText_cons (Ne.symm h.1), ih h.2]

theorem of_mem_ofText {b : Block} (h : b ∈ ofText a) :
    (∃ before after, a = before ++ (b.spelling ++ after)) ∧
      '}' ∉ b.body ∧ Keyword.first? '{' b.body = some b.keyword := by
  fun_induction ofText a with
  | case1 => cases h
  | case2 a x after found ih =>
    have spelled := spelling_of_read? found
    rcases List.mem_cons.1 h with rfl | later
    · exact ⟨⟨[], after, spelled.symm⟩, of_read? found⟩
    · obtain ⟨⟨before, rest, rfl⟩, read⟩ := ih later
      exact ⟨⟨x.spelling ++ before, rest, by rw [← spelled, List.append_assoc]⟩, read⟩
  | case3 a none ih =>
    obtain ⟨⟨before, rest, rfl⟩, read⟩ := ih h
    exact ⟨⟨'{' :: before, rest, rfl⟩, read⟩
  | case4 c a other ih =>
    obtain ⟨⟨before, rest, rfl⟩, read⟩ := ih h
    exact ⟨⟨c :: before, rest, rfl⟩, read⟩

/-- The blocks of a text that is cut where no brace is open are those of its pieces. -/
theorem ofText_append (h : IsSettled a) (b : List Char) :
    ofText (a ++ b) = ofText a ++ ofText b := by
  fun_induction ofText a with
  | case1 => rfl
  | case2 a x after found ih =>
    have longer := read?_append h.close_mem b
    rw [found, Option.map_some] at longer
    have spelled := spelling_of_read? found
    have settled : IsSettled after := by
      rw [← spelled] at h
      exact h.of_append
    rw [List.cons_append, ofText_of_read? longer, ih settled, List.cons_append]
  | case3 a none ih =>
    have longer := read?_append h.close_mem b
    rw [none, Option.map_none] at longer
    rw [List.cons_append, ofText_of_read?_eq_none longer, ih h.tail]
  | case4 c a other ih =>
    rw [List.cons_append, ofText_cons other, ih h.tail]

end Block

namespace Report

/-- The messages of a text are those of the parts of its blocks. -/
theorem messages_eq_filterMap (output : List Char) :
    messages output = ((Block.ofText output).flatMap Block.parts).filterMap Diagnostic.ofPart? := by
  rw [List.filterMap_flatMap]
  rfl

theorem messages_append {a : List Char} (h : Block.IsSettled a) (b : List Char) :
    messages (a ++ b) = messages a ++ messages b := by
  rw [messages, Block.ofText_append h, List.flatMap_append]
  rfl

/-- Output of the compiler that is cut where no brace is open can be read piece by piece: the report
on it has the errors and the warnings of the first piece and then those of the second. -/
theorem ofOutput_append (a b : String) (h : Block.IsSettled a.toList) :
    (ofOutput (a ++ b)).errors = (ofOutput a).errors ++ (ofOutput b).errors ∧
    (ofOutput (a ++ b)).warnings = (ofOutput a).warnings ++ (ofOutput b).warnings := by
  simp only [ofOutput, String.toList_append, messages_append h, ofMessages, List.filter_append,
    List.map_append, and_self]

/-- A brace that opens no block before the cut, and one that closes none behind it. -/
theorem ofOutput_pieces :
    Block.IsSettled "\x7b\x7bERROR: x\x7d".toList ∧
    (ofOutput ("\x7b\x7bERROR: x\x7d" ++ " WARNING: y\x7d \x7bERROR: z\x7d")).errors =
      [⟨none, "x"⟩, ⟨none, "z"⟩] ∧
    (ofOutput ("\x7b\x7bERROR: x\x7d" ++ " WARNING: y\x7d \x7bERROR: z\x7d")).warnings = [] := by
  have settled : Block.IsSettled "\x7b\x7bERROR: x\x7d".toList := by decide +kernel
  obtain ⟨errors, warnings⟩ := ofOutput_append _ " WARNING: y\x7d \x7bERROR: z\x7d" settled
  rw [errors, warnings]
  exact ⟨settled, by decide +kernel, by decide +kernel⟩

end Report
end PrologSource
