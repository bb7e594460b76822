import PrologSource.Proofs.Lines
import PrologSource.Proofs.Messages

/-! Syntax messages in the output of the compiler. A block that begins with one is skipped as a
whole, and so are all of them unless a block under a context line has opened before one and has not
closed (`Report.ofOutput_onlySyntax`). -/
namespace PrologSource

/-- A word on a line of a text is a word of the text, and the other way round. -/
theorem exists_line_infix_iff {word : List Char} (nonempty : word ≠ []) (newline : '\n' ∉ word)
    (ret : '\r' ∉ word) (cs : List Char) :
    (∃ line ∈ textLines cs, word <:+: line) ↔ word <:+: cs := by
  by_cases more : '\n' ∈ cs
  · obtain ⟨a, b, split, first⟩ := List.eq_append_cons_of_mem more
    have shorter : b.length < cs.length := by simp +arith [split]
    -- A return that goes with the newline is dropped from the line, and the word does not hold it.
    have front : word <:+: (if a.getLast? = some '\r' then a.dropLast else a) ↔ word <:+: a := by
      split
      · rename_i last
        obtain ⟨u, rfl⟩ := List.getLast?_eq_some_iff.1 last
        rw [List.dropLast_concat, Diagnostic.infix_append_cons ret, List.infix_nil,
          or_iff_left nonempty]
      · rfl
    rw [split, textLines_line first, List.exists_mem_cons_iff, front,
      exists_line_infix_iff nonempty newline ret b, Diagnostic.infix_append_cons newline]
  · by_cases empty : cs = []
    · subst empty
      simp [textLines, linesBy, nonempty]
    · rw [textLines_of_not_mem more empty]
      simp
termination_by cs.length

theorem suffix_of_suffix_append_cons {c : Char} {word u v : List Char} (h : c ∉ word)
    (back : c :: word <:+ u ++ c :: v) : c :: word <:+ v ∨ word = v := by
  obtain ⟨t, split⟩ := back
  rcases List.append_eq_append_iff.1 split with ⟨m, rfl, same⟩ | ⟨m, rfl, same⟩
  · cases m with
    | nil => exact .inr (List.cons.inj same).2
    | cons d m =>
      obtain ⟨rfl, rfl⟩ := List.cons.inj same
      exact absurd (List.mem_append_right m List.mem_cons_self) h
  · cases m with
    | nil => exact .inr (List.cons.inj same).2.symm
    | cons d m =>
      obtain ⟨rfl, rfl⟩ := List.cons.inj same
      exact .inl (List.suffix_append m _)

namespace Block
variable {b : Block} {cs header rest : List Char}

/-- A block under a context line has a message wherever a word of messages stands in it. -/
theorem exists_part_iff (context : b.keyword.isContext) (plain : ¬ b.isSyntax) (s : Severity) :
    (∃ part ∈ b.parts, Message.word s <:+: part) ↔ Message.word s <:+: b.body := by
  have mark : ¬ Message.word s <+: '{' :: b.body := by
    rw [← List.nil_append ('{' :: b.body), prefix_append_cons (by cases s <;> decide)]
    cases s <;> decide
  rw [parts, if_neg plain, if_pos context, exists_line_infix_iff, List.infix_cons_iff,
    or_iff_right mark]
  all_goals cases s <;> decide

/-- A block under a context line has opened in the text and has not closed. -/
def IsContextOpen (cs : List Char) : Prop :=
  ∃ before header k, cs = before ++ '{' :: header ∧ '}' ∉ header ∧
    Keyword.first? '{' header = some k ∧ k.isContext

theorem exists_isContextOpen (hb : b ∈ ofText cs) (context : b.keyword.isContext)
    (split : b.body = header ++ '{' :: rest) :
    ∃ before after, cs = before ++ '{' :: header ++ '{' :: (rest ++ '}' :: after) ∧
      IsContextOpen (before ++ '{' :: header) := by
  obtain ⟨⟨before, after, rfl⟩, close, found⟩ := of_mem_ofText hb
  rw [split, Keyword.first?_brace (.inl rfl)] at found
  rw [split, List.mem_append, not_or] at close
  refine ⟨before, after, ?_, before, header, b.keyword, rfl, close.1, found, context⟩
  simp [spelling, split]

end Block

namespace Message

def syntaxOpening : List Char := '{' :: "SYNTAX ".toList

def OnlySyntax (cs : List Char) : Prop :=
  ∀ s u v, cs = u ++ (word s ++ v) → syntaxOpening <:+ u

instance (cs : List Char) : Decidable (OnlySyntax cs) :=
  decidable_of_iff (∀ u ∈ cs.inits, ∀ s ∈ [Severity.error, .warning],
      word s <+: cs.drop u.length → syntaxOpening <:+ u) <| by
    constructor
    · intro all s u v split
      have front : u ∈ cs.inits := (List.mem_inits u cs).2 ⟨word s ++ v, split.symm⟩
      refine all u front s (by cases s <;> decide) ?_
      rw [split, List.drop_left]
      exact List.prefix_append _ v
    · intro h u front s _ behind
      obtain ⟨w, rfl⟩ := (List.mem_inits u cs).1 front
      rw [List.drop_left] at behind
      obtain ⟨v, rfl⟩ := behind
      exact h s u v rfl

namespace OnlySyntax
variable {cs : List Char} {b : Block} (h : OnlySyntax cs) (hb : b ∈ Block.ofText cs)
include h hb

/-- In a block that does not begin with a syntax message each one has its own brace. -/
theorem opening_suffix (plain : ¬ b.isSyntax) {s : Severity} {x y : List Char}
    (split : b.body = x ++ (word s ++ y)) : syntaxOpening <:+ x := by
  obtain ⟨⟨before, after, rfl⟩, -⟩ := Block.of_mem_ofText hb
  have whole : syntaxOpening <:+ before ++ '{' :: x := by
    refine h s _ (y ++ '}' :: after) ?_
    simp [Block.spelling, split]
  -- The opening has one brace: it stands in `x`, or it is that of the block.
  rcases suffix_of_suffix_append_cons (by decide) whole with inner | rfl
  · exact inner
  · refine absurd ?_ plain
    rw [Block.isSyntax, split]
    cases s <;> rfl

/-- The word of a syntax message opens no other block than that message, as its brace stands before
it. -/
theorem isContext (plain : ¬ b.isSyntax) : b.keyword.isContext := by
  obtain ⟨-, -, found⟩ := Block.of_mem_ofText hb
  obtain ⟨x, y, split, outside, -⟩ := Keyword.of_first? found
  by_contra alone
  obtain ⟨s, text⟩ : ∃ s, word s = b.keyword.text := by
    cases k : b.keyword with
    | warning => exact ⟨.warning, rfl⟩
    | error => exact ⟨.error, rfl⟩
    | _ => simp [k, Keyword.isContext] at alone
  rw [← text] at split
  exact outside ((h.opening_suffix hb plain split).subset List.mem_cons_self)

/-- Only a block under a context line has messages, and they are syntax messages in it. -/
theorem exists_part_iff (s : Severity) : (∃ part ∈ b.parts, word s <:+: part) ↔
    b.keyword.isContext ∧ ¬ b.isSyntax ∧ syntaxOpening ++ word s <:+: b.body := by
  by_cases plain : b.isSyntax
  · simp [Block.parts, plain]
  · have context := h.isContext hb plain
    rw [Block.exists_part_iff context plain]
    constructor
    · rintro ⟨x, y, split⟩
      rw [List.append_assoc] at split
      obtain ⟨u, rfl⟩ := h.opening_suffix hb plain split.symm
      exact ⟨context, plain, u, y, by rw [← split]; simp only [List.append_assoc]⟩
    · rintro ⟨-, -, inside⟩
      exact (List.suffix_append _ _).isInfix.trans inside

end OnlySyntax
end Message

namespace Report
open Message (OnlySyntax syntaxOpening word)

theorem isEmpty_ofMessages (found : List (Severity × Diagnostic)) :
    (ofMessages found).isEmpty ↔ found = [] := by
  cases found with
  | nil => exact iff_of_true rfl rfl
  | cons m found =>
    obtain ⟨s, d⟩ := m
    cases s <;> simp [ofMessages, isEmpty]

/-- A report is empty if no part of a block has a word of messages. -/
theorem isEmpty_ofOutput_iff (output : String) : (ofOutput output).isEmpty ↔
    ∀ b ∈ Block.ofText output.toList, ∀ s, ¬ ∃ part ∈ b.parts, word s <:+: part := by
  simp only [ofOutput, isEmpty_ofMessages, messages, List.flatMap_eq_nil_iff,
    List.filterMap_eq_nil_iff, Message.ofPart?_eq_none_iff, not_exists, not_and]
  refine forall₂_congr fun b hb => ⟨?_, ?_⟩
  · intro none s part hp
    exact none part hp s
  · intro none part hp s
    exact none s part hp

/-- Output with syntax messages only is reported on just where a block under a context line holds
one, and so not at all if none follows an open context line. -/
theorem ofOutput_onlySyntax (output : String) (h : OnlySyntax output.toList) :
    ((ofOutput output).isEmpty ↔ ∀ b ∈ Block.ofText output.toList, b.keyword.isContext →
      ¬ b.isSyntax → ∀ s, ¬ syntaxOpening ++ word s <:+: b.body) ∧
    ((∀ s u v, output.toList = u ++ (syntaxOpening ++ word s ++ v) → ¬ Block.IsContextOpen u) →
      (ofOutput output).isEmpty) := by
  have blocks : (ofOutput output).isEmpty ↔ ∀ b ∈ Block.ofText output.toList,
      b.keyword.isContext → ¬ b.isSyntax → ∀ s, ¬ syntaxOpening ++ word s <:+: b.body := by
    rw [isEmpty_ofOutput_iff]
    refine forall₂_congr fun b hb => ?_
    simp only [h.exists_part_iff hb, not_and]
    exact ⟨fun silent context plain s => silent s context plain,
      fun silent s context plain => silent context plain s⟩
  refine ⟨blocks, fun closed => blocks.2 ?_⟩
  rintro b hb context - s ⟨header, rest, split⟩
  have front : b.body = header ++ '{' :: ("SYNTAX ".toList ++ word s ++ rest) := by
    rw [← split, List.append_assoc]
    rfl
  obtain ⟨before, after, whole, opened⟩ := Block.exists_isContextOpen hb context front
  refine closed s _ (rest ++ '}' :: after) ?_ opened
  rw [whole, syntaxOpening]
  simp only [List.append_assoc, List.cons_append]

/-- A block under a context line closes before the second syntax message. -/
theorem ofOutput_syntax_behind_context :
    let output := "\x7bSYNTAX WARNING: x\x7d\n\x7bIn a.pl\n\x7d\n\x7bSYNTAX ERROR: In y\x7d\n"
    OnlySyntax output.toList ∧ (ofOutput output).isEmpty := by
  intro output
  have only : OnlySyntax output.toList := by decide +kernel
  have blocks : Block.ofText output.toList = [⟨.warning, "SYNTAX WARNING: x".toList⟩,
      ⟨.inFile, "In a.pl\n".toList⟩, ⟨.error, "SYNTAX ERROR: In y".toList⟩] := by decide +kernel
  refine ⟨only, (ofOutput_onlySyntax output only).1.2 ?_⟩
  rw [blocks, List.forall_mem_cons, List.forall_mem_cons, List.forall_mem_singleton]
  refine ⟨?_, ?_, ?_⟩
  · intro context
    cases context
  · intro _ _ s
    cases s <;> decide
  · intro context
    cases context

/-- A syntax message under a context line is reported. -/
theorem ofOutput_syntax_under_context :
    let output := "\x7bIn a.pl\n\x7bSYNTAX ERROR: (lns 3-3) operator expected\n\x7d\n\x7d\n"
    OnlySyntax output.toList ∧
    ofOutput output = ⟨[⟨some ⟨3, 3⟩, "operator expected"⟩], []⟩ := by
  decide +kernel

end Report
end PrologSource
