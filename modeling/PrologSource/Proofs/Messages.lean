import Mathlib.Data.List.DropRight
import PrologSource.Message.Passage
import PrologSource.Proofs.Blocks
import PrologSource.Proofs.Decimals

namespace PrologSource
variable {cs rest first last : List Char}

/-! White space at the ends of a text. -/

theorem trimSpace_cons {c : Char} (h : isSpace c) (cs : List Char) :
    trimSpace (c :: cs) = trimSpace cs := by
  rw [trimSpace, List.dropWhile_cons_of_pos h, trimSpace]

theorem trimSpace_concat {c : Char} (h : isSpace c) (cs : List Char) :
    trimSpace (cs ++ [c]) = trimSpace cs := by
  rw [trimSpace, trimSpace, List.dropWhile_append]
  cases cs.dropWhile isSpace with
  | nil => simp [h]
  | cons d more => simp [h]

theorem trimSpace_of_isTrimmed (h : IsTrimmed cs) : trimSpace cs = cs := by
  have front : cs.dropWhile isSpace = cs := by
    cases cs with
    | nil => rfl
    | cons c cs => exact List.dropWhile_cons_of_neg (h.1 c rfl)
  have back : cs.rdropWhile isSpace = cs := by
    rw [List.rdropWhile_eq_self_iff]
    intro nonempty
    exact h.2 _ (List.getLast?_eq_getLast_of_ne_nil nonempty)
  rw [trimSpace, front]
  exact back

/-- What is left of the end of a text when white space is skipped again. -/
theorem IsTrimmed.dropWhile (h : IsTrimmed cs) (back : rest <:+ cs) :
    IsTrimmed (rest.dropWhile isSpace) := by
  refine ⟨fun c hc => ?_, fun c hc => ?_⟩
  · have front := head_dropWhile_not isSpace rest
    rw [hc] at front
    exact front
  · obtain ⟨u, rfl⟩ := (List.dropWhile_suffix isSpace).trans back
    have nonempty : rest.dropWhile isSpace ≠ [] := List.ne_nil_of_mem (List.mem_of_getLast? hc)
    apply h.2
    rwa [List.getLast?_append_of_ne_nil u nonempty]

theorem trimSpace_isPrefix (cs : List Char) : trimSpace cs <+: cs.dropWhile isSpace :=
  List.rdropWhile_prefix isSpace _

theorem isTrimmed_trimSpace (cs : List Char) : IsTrimmed (trimSpace cs) := by
  refine ⟨fun c hc => ?_, fun c hc => ?_⟩
  · obtain ⟨t, whole⟩ := trimSpace_isPrefix cs
    have front := head_dropWhile_not isSpace cs
    rw [← whole, List.head?_append, hc] at front
    exact front
  · have back := head_dropWhile_not isSpace (cs.dropWhile isSpace).reverse
    rw [trimSpace, List.getLast?_reverse] at hc
    rw [hc] at back
    exact back

namespace Diagnostic

/-- A text mentions the words that occur in it. -/
theorem mentions_iff (word cs : List Char) : mentions word cs ↔ word <:+: cs := by
  induction cs with
  | nil => rw [mentions, List.isEmpty_iff, List.infix_nil]
  | cons c cs ih =>
    rw [mentions, Bool.or_eq_true, List.isPrefixOf_iff_prefix, ih, List.infix_cons_iff]

/-- A word stands on one side of a character that it does not hold. -/
theorem infix_append_cons {word : List Char} {c : Char} (h : c ∉ word) (u v : List Char) :
    word <:+: u ++ c :: v ↔ word <:+: u ∨ word <:+: v := by
  induction u with
  | nil =>
    have front := prefix_append_cons h [] v
    rw [List.nil_append, List.prefix_nil] at front
    rw [List.nil_append, List.infix_cons_iff, front, List.infix_nil]
  | cons d u ih =>
    have front := prefix_append_cons h (d :: u) v
    rw [List.cons_append] at front
    rw [List.cons_append, List.infix_cons_iff, List.infix_cons_iff, front, ih, or_assoc]

theorem afterColon_append {word : List Char} (h : ':' ∉ word) (cs : List Char) :
    afterColon (word ++ ':' :: cs) = cs := by
  obtain ⟨-, left⟩ := takeWhile_ne_run (t := ':' :: cs) h (by simp)
  rw [afterColon, if_pos (List.mem_append_right word List.mem_cons_self), left]
  rfl

open Message (lineNumbers)

theorem lineNumbers?_append (hf : IsDecimal first) (hl : IsDecimal last) (rest : List Char) :
    lineNumbers? (lineNumbers first last ++ rest) = some ((first, last), rest) := by
  have front : "(lns ".toList.isPrefixOf? (lineNumbers first last ++ rest) =
      some (first ++ '-' :: (last ++ ')' :: rest)) := by
    rw [List.isPrefixOf?_eq_some_iff_append_eq]
    simp only [lineNumbers, List.append_assoc, List.cons_append, List.nil_append]
  have close : [')'].isPrefixOf? (')' :: rest) = some rest :=
    List.isPrefixOf?_eq_some_iff_append_eq.2 rfl
  have range : digitRange? (first ++ '-' :: (last ++ ')' :: rest)) =
      some ((first, last), ')' :: rest) := digitRange?_append hf hl Bool.false_ne_true
  simp only [lineNumbers?, front, range, close, Option.bind_eq_bind, Option.bind_some]
  rfl

theorem of_lineNumbers? (h : lineNumbers? cs = some ((first, last), rest)) :
    IsDecimal first ∧ IsDecimal last ∧ cs = lineNumbers first last ++ rest := by
  simp only [lineNumbers?, Option.bind_eq_bind, Option.bind_eq_some_iff] at h
  obtain ⟨behind, front, ⟨⟨first', last'⟩, more⟩, range, left, close, same⟩ := h
  obtain ⟨⟨rfl, rfl⟩, rfl⟩ : (first' = first ∧ last' = last) ∧ left = rest := by simpa using same
  obtain ⟨hf, hl, rfl⟩ := of_digitRange? range
  rw [List.isPrefixOf?_eq_some_iff_append_eq] at front close
  refine ⟨hf, hl, ?_⟩
  rw [← front, ← show [')'] ++ left = more from close]
  simp only [lineNumbers, List.append_assoc, List.cons_append, List.nil_append]

end Diagnostic

namespace Message
variable {m : Message}

theorem isTrimmed_lineNumbers (first last : List Char) : IsTrimmed (lineNumbers first last) := by
  have close : (lineNumbers first last).getLast? = some ')' := by
    rw [lineNumbers, ← List.cons_append, ← List.append_assoc, ← List.append_assoc,
      List.getLast?_concat]
  refine ⟨fun c hc => ?_, fun c hc => ?_⟩
  · cases hc
    decide
  · rw [close] at hc
    cases hc
    decide

/-- What is left of line numbers with a text behind them. -/
theorem lineNumbers?_trimSpace (hf : IsDecimal first) (hl : IsDecimal last)
    (text : IsTrimmed cs) : ∃ rest,
      Diagnostic.lineNumbers? (trimSpace (' ' :: (lineNumbers first last ++ ' ' :: cs))) =
        some ((first, last), rest) ∧ rest.dropWhile isSpace = cs := by
  have whole := isTrimmed_lineNumbers first last
  rw [trimSpace_cons rfl]
  cases cs with
  | nil =>
    have found := Diagnostic.lineNumbers?_append hf hl []
    rw [List.append_nil] at found
    rw [trimSpace_concat rfl, trimSpace_of_isTrimmed whole]
    exact ⟨[], found, rfl⟩
  | cons c cs =>
    have trimmed : IsTrimmed (lineNumbers first last ++ ' ' :: c :: cs) := by
      refine ⟨whole.1, ?_⟩
      rw [List.getLast?_append_of_ne_nil _ (List.cons_ne_nil _ _), List.getLast?_cons_cons]
      exact text.2
    rw [trimSpace_of_isTrimmed trimmed]
    refine ⟨' ' :: c :: cs, Diagnostic.lineNumbers?_append hf hl _, ?_⟩
    rw [List.dropWhile_cons_of_pos rfl, List.dropWhile_cons_of_neg (text.1 c rfl)]

/-- The text behind the colon is read as the diagnostic that is meant. -/
theorem ofText_body (h : m.IsPlain) : Diagnostic.ofText (' ' :: m.body) = m.diagnostic := by
  obtain ⟨severity, numbers, text⟩ := m
  have trimmed : IsTrimmed text := h.trimmed
  have numbered := h.numbers
  cases numbers with
  | none =>
    have absent : Diagnostic.lineNumbers? text = none := by
      cases found : Diagnostic.lineNumbers? text with
      | none => rfl
      | some r =>
        obtain ⟨⟨first, last⟩, rest⟩ := r
        obtain ⟨hf, hl, rfl⟩ := Diagnostic.of_lineNumbers? found
        exact absurd (List.prefix_append _ rest) (numbered first last hf hl)
    have trim : trimSpace (' ' :: text) = text := by
      rw [trimSpace_cons rfl, trimSpace_of_isTrimmed trimmed]
    simp only [Diagnostic.ofText, body, trim, absent]
    rfl
  | some n =>
    obtain ⟨first, last⟩ := n
    obtain ⟨⟨hf, small⟩, ⟨hl, small'⟩⟩ := numbered
    obtain ⟨rest, found, left⟩ := lineNumbers?_trimSpace hf hl trimmed
    simp only [Diagnostic.ofText, body, found, left, Diagnostic.range?, word?, if_pos small,
      if_pos small']
    rfl

/-- What line numbers are written with. -/
theorem mem_lineNumbers (hf : IsDecimal first) (hl : IsDecimal last) {c : Char}
    (h : c ∈ lineNumbers first last) : isDigit c ∨ c ∈ "(lns -)".toList := by
  simp only [lineNumbers, List.mem_append, List.mem_cons, List.not_mem_nil, or_false] at h
  rcases h with lead | digit | rfl | digit | rfl
  · exact .inr (List.mem_append_left ['-', ')'] lead)
  · exact .inl (hf.2 c digit)
  · exact .inr (by decide)
  · exact .inl (hl.2 c digit)
  · exact .inr (by decide)

/-- Only the text of a message can speak of warnings behind its word. -/
theorem warning_infix_body (h : m.IsPlain) (inside : word .warning <:+: m.body) :
    word .warning <:+: m.text := by
  obtain ⟨severity, numbers, text⟩ := m
  cases numbers with
  | none => exact inside
  | some n =>
    obtain ⟨⟨hf, -⟩, ⟨hl, -⟩⟩ := h.numbers
    rcases (Diagnostic.infix_append_cons (by decide) _ _).1 inside with front | behind
    · have capital : 'W' ∈ lineNumbers n.1 n.2 := front.subset (by decide)
      exact absurd (mem_lineNumbers hf hl capital) (by decide)
    · exact behind

theorem severity?_eq (cs : List Char) : Diagnostic.severity? cs =
    if word .warning <:+: cs then some .warning
    else if word .error <:+: cs then some .error else none := by
  have same (s : Severity) : Diagnostic.mentions (word s) cs = true ↔ word s <:+: cs :=
    Diagnostic.mentions_iff _ _
  change (if Diagnostic.mentions (word .warning) cs then some Severity.warning
    else if Diagnostic.mentions (word .error) cs then some .error else none) = _
  simp only [same]

/-- A part that begins with a word is a message. It is taken for one of the other severity only if
an error speaks of warnings. -/
theorem severity?_word (s : Severity) (text : List Char) :
    ∃ found, Diagnostic.severity? (word s ++ ':' :: text) = some found ∧
      (found = s ↔ (s = .error → ¬ word .warning <:+: text)) := by
  have front : word s <:+: word s ++ ':' :: text := (List.prefix_append _ _).isInfix
  cases s with
  | warning =>
    refine ⟨.warning, by rw [severity?_eq, if_pos front], iff_of_true rfl ?_⟩
    intro error
    cases error
  | error =>
    have split : word .warning <:+: word .error ++ ':' :: text ↔ word .warning <:+: text := by
      rw [Diagnostic.infix_append_cons (by decide), or_iff_right (by decide)]
    by_cases mention : word .warning <:+: text
    · refine ⟨.warning, by rw [severity?_eq, if_pos (split.2 mention)], ?_⟩
      refine iff_of_false (by decide) ?_
      intro silent
      exact silent rfl mention
    · refine ⟨.error, ?_, iff_of_true rfl fun _ => mention⟩
      rw [severity?_eq, if_neg (mt split.1 mention), if_pos front]

/-- The text of such a part is the message. -/
theorem ofPart?_word (s : Severity) (text : List Char) :
    ∃ found, Diagnostic.ofPart? (word s ++ ':' :: text) = some (found, Diagnostic.ofText text) ∧
      (found = s ↔ (s = .error → ¬ word .warning <:+: text)) := by
  obtain ⟨found, severity, exact_⟩ := severity?_word s text
  have colon : ':' ∉ word s := by cases s <;> decide
  refine ⟨found, ?_, exact_⟩
  rw [Diagnostic.ofPart?, severity, Option.map_some, Diagnostic.afterColon_append colon]

theorem ofPart?_eq_none_iff (part : List Char) :
    Diagnostic.ofPart? part = none ↔ ∀ s, ¬ word s <:+: part := by
  rw [Diagnostic.ofPart?, Option.map_eq_none_iff, severity?_eq]
  constructor
  · intro none s inside
    cases s with
    | warning =>
      rw [if_pos inside] at none
      cases none
    | error =>
      rw [if_pos inside] at none
      split at none <;> cases none
  · intro absent
    rw [if_neg (absent .warning), if_neg (absent .error)]

theorem mem_body (h : m.IsPlain) {c : Char} (hc : c ∈ m.body) :
    c ∈ m.text ∨ isDigit c ∨ c ∈ "(lns -)".toList := by
  obtain ⟨severity, numbers, text⟩ := m
  cases numbers with
  | none => exact .inl hc
  | some n =>
    obtain ⟨⟨hf, -⟩, ⟨hl, -⟩⟩ := h.numbers
    rcases List.mem_append.1 hc with lead | behind
    · exact .inr (mem_lineNumbers hf hl lead)
    · rcases List.mem_cons.1 behind with rfl | text
      · exact .inr (.inr (by decide))
      · exact .inl text

theorem mem_spelling (h : m.IsPlain) {c : Char} (hc : c ∈ m.spelling) :
    c ∈ m.text ∨ isDigit c ∨ c ∈ ":(lns -)".toList ∨ c ∈ word m.severity := by
  simp only [spelling, List.mem_append, List.mem_cons] at hc
  rcases hc with front | rfl | rfl | body
  · exact .inr (.inr (.inr front))
  · exact .inr (.inr (.inl (by decide)))
  · exact .inr (.inr (.inl (by decide)))
  · rcases mem_body h body with text | digit | mark
    · exact .inl text
    · exact .inr (.inl digit)
    · exact .inr (.inr (.inl (List.mem_cons_of_mem ':' mark)))

/-- Neither the brace that closes its block nor a newline is written with a message, but in its
text. -/
theorem not_mem_spelling (h : m.IsPlain) {c : Char} (hc : c = '}' ∨ c = '\n')
    (text : c ∉ m.text) : c ∉ m.spelling := by
  intro mem
  have others := (mem_spelling h mem).resolve_left text
  cases severity : m.severity <;> rw [severity] at others <;>
    rcases hc with rfl | rfl <;> exact absurd others (by decide)

/-- The text of a message stands behind a space. -/
theorem exists_spelling_eq (m : Message) : ∃ lead, m.spelling = lead ++ ' ' :: m.text := by
  obtain ⟨severity, numbers, text⟩ := m
  cases numbers with
  | none => exact ⟨word severity ++ [':'], by simp [spelling, body]⟩
  | some n => exact ⟨word severity ++ ':' :: ' ' :: lineNumbers n.1 n.2, by simp [spelling, body]⟩

theorem getLast?_spelling (h : m.IsPlain) : m.spelling.getLast? ≠ some '\r' := by
  obtain ⟨lead, split⟩ := m.exists_spelling_eq
  intro ret
  rw [split] at ret
  cases text : m.text with
  | nil =>
    rw [text, List.getLast?_concat] at ret
    cases ret
  | cons c cs =>
    rw [text, List.getLast?_append_of_ne_nil _ (List.cons_ne_nil _ _), List.getLast?_cons_cons,
      ← text] at ret
    exact h.trimmed.2 '\r' ret (by decide)

/-- A plain message is read back: as a message of its severity, with its lines and its text. -/
theorem ofPart?_spelling (h : m.IsPlain) :
    Diagnostic.ofPart? m.spelling = some (m.severity, m.diagnostic) := by
  obtain ⟨found, message, same⟩ := ofPart?_word m.severity (' ' :: m.body)
  have silent : m.severity = .error → ¬ word .warning <:+: ' ' :: m.body := by
    intro error inside
    rcases (Diagnostic.infix_append_cons (by decide) [] m.body).1 inside with front | behind
    · exact absurd front (by decide)
    · exact h.severity error (warning_infix_body h behind)
  rw [spelling, message, same.2 silent, ofText_body h]

end Message
end PrologSource
