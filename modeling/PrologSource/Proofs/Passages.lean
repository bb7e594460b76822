import PrologSource.Proofs.Lines
import PrologSource.Proofs.Messages

/-! Compiler output as it is written and read. Each passage is one block or none
(`Block.ofText_block`), and the messages of its block are those it was written with
(`Passage.messages_spelling`). Main statement: the report on passages has just their messages
(`Report.ofOutput_passages`). -/
namespace PrologSource

namespace Keyword

theorem first?_text (k : Keyword) {before c : Char} (hb : ¬ isWordChar before)
    (hc : ¬ isWordChar c) (rest : List Char) : first? before (k.text ++ c :: rest) = some k := by
  have found := at?_text k hb (y := c :: rest) (by simpa using hc)
  cases spelled : k.text with
  | nil => cases k <;> cases spelled
  | cons d tail =>
    have brace : ¬ (d = '{' ∨ d = '}') := not_brace_of_mem_text (k := k) (by simp [spelled])
    rw [spelled, List.cons_append] at found
    rw [List.cons_append, first?, if_neg brace, found]

end Keyword

namespace Block

/-- Text in braces that begins with a keyword is one block. -/
theorem ofText_block (k : Keyword) {c : Char} {rest : List Char} (hc : ¬ isWordChar c)
    (inside : '}' ∉ c :: rest) :
    ofText ('{' :: (k.text ++ c :: rest ++ ['}'])) = [⟨k, k.text ++ c :: rest⟩] := by
  have closed : '}' ∉ k.text ++ c :: rest := by
    rw [List.mem_append, not_or]
    exact ⟨k.brace_not_mem_text.2, inside⟩
  have found : read? (k.text ++ c :: rest ++ ['}']) = some (⟨k, k.text ++ c :: rest⟩, []) := by
    rw [read?_close closed, Keyword.first?_text k (by decide) hc, Option.map_some]
  rw [ofText_of_read? found, ofText]

/-- A block that begins with its keyword is no syntax message. -/
theorem isSyntax_eq_false (k : Keyword) (rest : List Char) :
    isSyntax ⟨k, k.text ++ rest⟩ = false := by
  cases k <;> rfl

/-- Text in braces that begins with the word of a message is a message as a whole. -/
theorem parts_word (s : Severity) {text : List Char} (inside : '}' ∉ text) :
    (ofText ('{' :: (Message.word s ++ ':' :: text ++ ['}']))).flatMap parts =
      [Message.word s ++ ':' :: text] := by
  obtain ⟨k, alone, word⟩ : ∃ k : Keyword, k.isContext = false ∧ Message.word s = k.text := by
    cases s
    · exact ⟨.error, rfl, rfl⟩
    · exact ⟨.warning, rfl, rfl⟩
  have closed : '}' ∉ ':' :: text := by simp [inside]
  rw [word, ofText_block k (by decide) closed, List.flatMap_singleton, parts, isSyntax_eq_false,
    alone]
  rfl

end Block

theorem textLines_messages {messages : List Message}
    (h : ∀ m ∈ messages, m.IsPlain ∧ '\n' ∉ m.text) :
    textLines (messages.flatMap fun m => m.spelling ++ ['\n']) =
      messages.map Message.spelling := by
  refine textLines_flatMap ?_
  intro m hm
  obtain ⟨plain, newline⟩ := h m hm
  exact ⟨Message.not_mem_spelling plain (.inr rfl) newline, Message.getLast?_spelling plain⟩

namespace Passage

/-- A context line is no message, nor is what a return leaves of it. -/
theorem ofPart?_header {k : Keyword} (context : k.isContext) {header : List Char}
    (h : ∀ s, ¬ Message.word s <:+: header) {line : List Char}
    (front : line <+: '{' :: k.text ++ ' ' :: header) : Diagnostic.ofPart? line = none := by
  rw [Message.ofPart?_eq_none_iff]
  intro s inside
  have whole := inside.trans front.isInfix
  rw [Diagnostic.infix_append_cons (by cases s <;> decide)] at whole
  rcases whole with keyword | later
  · revert context keyword
    cases k <;> cases s <;> decide
  · exact h s later

theorem isSettled_spelling {p : Passage} (h : p.IsPlain) : Block.IsSettled p.spelling := by
  cases p with
  | plain text => exact Block.isSettled_of_not_mem h
  | context k header messages => exact Block.isSettled_concat ('{' :: _)
  | single m => exact Block.isSettled_concat ('{' :: _)

/-- The messages of a context block stand on its lines but the first. -/
theorem parts_context {k : Keyword} {header : List Char} {messages : List Message}
    (h : (context k header messages).IsPlain) :
    (Block.parts ⟨k, k.text ++ ' ' :: (header ++ '\n' ::
      messages.flatMap fun m => m.spelling ++ ['\n'])⟩).filterMap Diagnostic.ofPart? =
        messages.map fun m => (m.severity, m.diagnostic) := by
  obtain ⟨context, newline, -, -, words, plain⟩ := h
  have first : '\n' ∉ '{' :: k.text ++ ' ' :: header := by
    have keyword : '\n' ∉ k.text := by cases k <;> decide
    simp [keyword, newline]
  have lines : Block.parts ⟨k, k.text ++ ' ' :: (header ++ '\n' ::
      messages.flatMap fun m => m.spelling ++ ['\n'])⟩ =
        textLines (('{' :: k.text ++ ' ' :: header) ++ '\n' ::
          messages.flatMap fun m => m.spelling ++ ['\n']) := by
    simp [Block.parts, Block.isSyntax_eq_false, context]
  rw [lines, textLines_line first, textLines_messages plain, List.filterMap_cons_none,
    List.filterMap_map]
  · refine List.filterMap_eq_map_iff_forall_eq_some.2 ?_
    intro m hm
    exact Message.ofPart?_spelling (plain m hm).1
  · split
    · exact ofPart?_header context words (List.dropLast_prefix _)
    · exact ofPart?_header context words List.prefix_rfl

theorem messages_context {k : Keyword} {header : List Char} {messages : List Message}
    (h : (context k header messages).IsPlain) :
    Report.messages (context k header messages).spelling =
      messages.map fun m => (m.severity, m.diagnostic) := by
  have inside : '}' ∉ ' ' :: (header ++ '\n' ::
      messages.flatMap fun m => m.spelling ++ ['\n']) := by
    obtain ⟨-, -, -, close, -, plain⟩ := h
    have lines : '}' ∉ messages.flatMap fun m => m.spelling ++ ['\n'] := by
      intro mem
      obtain ⟨m, hm, written⟩ := List.mem_flatMap.1 mem
      obtain ⟨plain, -⟩ := plain m hm
      have outside := Message.not_mem_spelling plain (.inl rfl) plain.no_brace.2
      simp [outside] at written
    simp [close, lines]
  have spelled : (context k header messages).spelling = '{' :: (k.text ++ ' ' :: (header ++
      '\n' :: messages.flatMap fun m => m.spelling ++ ['\n']) ++ ['}']) := by
    simp [spelling]
  rw [spelled, Report.messages, Block.ofText_block k (by decide) inside, List.flatMap_singleton,
    parts_context h]

theorem messages_single {m : Message} (h : m.IsPlain) :
    Report.messages (single m).spelling = [(m.severity, m.diagnostic)] := by
  have inside : '}' ∉ ' ' :: m.body := by
    intro mem
    have mem : '}' ∈ m.spelling := List.mem_append_right _ (List.mem_cons_of_mem ':' mem)
    exact Message.not_mem_spelling h (.inl rfl) h.no_brace.2 mem
  rw [Report.messages_eq_filterMap, spelling, Message.spelling, Block.parts_word _ inside,
    ← Message.spelling, List.filterMap_cons_some (Message.ofPart?_spelling h), List.filterMap_nil]

/-- A passage has just the messages that it was written with. -/
theorem messages_spelling {p : Passage} (h : p.IsPlain) :
    Report.messages p.spelling = p.messages.map fun m => (m.severity, m.diagnostic) := by
  cases p with
  | plain text =>
    rw [spelling, Report.messages, Block.ofText_of_not_mem h]
    rfl
  | context k header messages => exact messages_context h
  | single m => exact messages_single h

end Passage

namespace Report

theorem messages_passages {passages : List Passage} (h : ∀ p ∈ passages, p.IsPlain) :
    messages (passages.flatMap Passage.spelling) =
      (passages.flatMap Passage.messages).map fun m => (m.severity, m.diagnostic) := by
  induction passages with
  | nil =>
    change messages [] = []
    rw [messages, Block.ofText]
    rfl
  | cons p passages ih =>
    have plain := h p List.mem_cons_self
    rw [List.flatMap_cons, messages_append (Passage.isSettled_spelling plain),
      Passage.messages_spelling plain, ih fun q hq => h q (List.mem_cons_of_mem p hq),
      List.flatMap_cons, List.map_append]

/-- The report on passages as the compiler writes them has each of their messages once, the errors
and the warnings each in their order. -/
theorem ofOutput_passages (passages : List Passage) (h : ∀ p ∈ passages, p.IsPlain) :
    let found := passages.flatMap Passage.messages
    let report := ofOutput (String.ofList (passages.flatMap Passage.spelling))
    report.errors = (found.filter (·.severity = .error)).map Message.diagnostic ∧
    report.warnings = (found.filter (·.severity = .warning)).map Message.diagnostic := by
  intro found report
  have all : report = ofMessages (found.map fun m => (m.severity, m.diagnostic)) := by
    rw [← messages_passages h]
    simp only [report, ofOutput, String.toList_ofList]
  rw [all]
  simp only [ofMessages, List.filter_map, List.map_map]
  exact ⟨rfl, rfl⟩

/-- A block under a context line and one that stands alone, behind a brace that closes none. -/
theorem ofOutput_loading :
    let passages : List Passage :=
      [.plain "loading \x7d ".toList,
        .context .inFile "app.pl".toList
          [⟨.warning, some ("4".toList, "5".toList), "foo/1 undefined".toList⟩,
            ⟨.error, some ("9".toList, "9".toList), "Bad: clause".toList⟩],
        .single ⟨.warning, none, "no main/0 defined".toList⟩]
    let report := ofOutput (String.ofList (passages.flatMap Passage.spelling))
    (∀ p ∈ passages, p.IsPlain) ∧
    report.errors = [⟨some ⟨9, 9⟩, "Bad: clause"⟩] ∧
    report.warnings = [⟨some ⟨4, 5⟩, "foo/1 undefined"⟩, ⟨none, "no main/0 defined"⟩] := by
  intro passages report
  have undefined : Message.IsPlain
      ⟨.warning, some ("4".toList, "5".toList), "foo/1 undefined".toList⟩ :=
    ⟨by decide, by decide, by decide, ⟨by decide, by decide⟩⟩
  have clause : Message.IsPlain
      ⟨.error, some ("9".toList, "9".toList), "Bad: clause".toList⟩ :=
    ⟨by decide, by decide, fun _ => by decide, ⟨by decide, by decide⟩⟩
  have main : Message.IsPlain ⟨.warning, none, "no main/0 defined".toList⟩ := by
    refine ⟨by decide, by decide, by decide, ?_⟩
    rintro first last - - ⟨rest, same⟩
    simp [Message.lineNumbers] at same
  have header : ∀ s, ¬ Message.word s <:+: "app.pl".toList := by
    intro s
    cases s <;> decide
  have plain : ∀ p ∈ passages, p.IsPlain := by
    simp only [passages, List.forall_mem_cons]
    have text : '{' ∉ "loading \x7d ".toList := by decide
    refine ⟨text, ⟨rfl, by decide, by decide, by decide, header, ?_⟩, main, by simp⟩
    exact List.forall_mem_cons.2
      ⟨⟨undefined, by decide⟩, List.forall_mem_singleton.2 ⟨clause, by decide⟩⟩
  obtain ⟨errors, warnings⟩ := ofOutput_passages passages plain
  exact ⟨plain, errors.trans (by decide), warnings.trans (by decide)⟩

end Report
end PrologSource
