import PrologSource.Proofs.Passages

namespace PrologSource

namespace Report
open Diagnostic (ofPart?)

/-- A word and a colon in front of a block, or of a line of a context block, make a message: it is
reported once, in its place, and its severity is that of the word unless an error speaks of
warnings, which makes it a warning. -/
theorem ofOutput_word (s : Severity) :
    (∀ text, '}' ∉ text → ∃ found,
      ofOutput (String.ofList ('{' :: (Message.word s ++ ':' :: text ++ ['}']))) =
        ofMessages [(found, Diagnostic.ofText text)] ∧
      (found = s ↔ (s = .error → ¬ Message.word .warning <:+: text))) ∧
    ∀ (output : String) (before after : List Block) (b : Block) (earlier later : List (List Char))
      (text : List Char), Block.ofText output.toList = before ++ b :: after →
      b.keyword.isContext → ¬ b.isSyntax →
      textLines ('{' :: b.body) = earlier ++ (Message.word s ++ ':' :: text) :: later →
      ∃ found, ofOutput output =
        ofMessages ((before.flatMap Block.parts ++ earlier).filterMap ofPart? ++
          (found, Diagnostic.ofText text) ::
            (later ++ after.flatMap Block.parts).filterMap ofPart?) ∧
      (found = s ↔ (s = .error → ¬ Message.word .warning <:+: text)) := by
  constructor
  · intro text inside
    obtain ⟨found, message, severity⟩ := Message.ofPart?_word s text
    refine ⟨found, ?_, severity⟩
    rw [ofOutput, String.toList_ofList, messages_eq_filterMap, Block.parts_word s inside,
      List.filterMap_cons_some message, List.filterMap_nil]
  · intro output before after b earlier later text blocks context plain lines
    obtain ⟨found, message, severity⟩ := Message.ofPart?_word s text
    have parts : b.parts = earlier ++ (Message.word s ++ ':' :: text) :: later := by
      rw [Block.parts, if_neg plain, if_pos context, lines]
    refine ⟨found, ?_, severity⟩
    rw [ofOutput, messages_eq_filterMap, blocks, List.flatMap_append, List.flatMap_cons, parts]
    simp only [List.filterMap_append, List.filterMap_cons_some message, List.append_assoc,
      List.cons_append]

/-- A warning may speak of errors. -/
theorem ofOutput_error_line :
    let output := "\x7bIn a.pl\nWARNING: ERROR\nERROR: (lns 1-2) x\n\x7d"
    let body := "In a.pl\nWARNING: ERROR\nERROR: (lns 1-2) x\n".toList
    Block.ofText output.toList = [⟨.inFile, body⟩] ∧
    textLines ('{' :: body) = ["\x7bIn a.pl".toList, "WARNING: ERROR".toList,
      "ERROR: (lns 1-2) x".toList] ∧
    ofOutput output = ⟨[⟨some ⟨1, 2⟩, "x"⟩], [⟨none, "ERROR"⟩]⟩ := by
  intro output body
  have blocks : Block.ofText output.toList = [] ++ ⟨.inFile, body⟩ :: [] := by decide +kernel
  have lines : textLines ('{' :: body) = ["\x7bIn a.pl".toList, "WARNING: ERROR".toList] ++
      ["ERROR: (lns 1-2) x".toList] := by decide +kernel
  obtain ⟨found, report, severity⟩ := (ofOutput_word .error).2 output [] [] ⟨.inFile, body⟩ _ []
    " (lns 1-2) x".toList blocks rfl (by decide) lines
  have error : found = .error := severity.2 fun _ => by decide
  rw [error] at report
  exact ⟨blocks, lines, report.trans (by decide +kernel)⟩

/-- An error that speaks of warnings is reported as a warning, standing alone or under a context
line. -/
theorem ofOutput_error_as_warning :
    ofOutput "\x7bERROR: option WARNING is not known\x7d" =
      ⟨[], [⟨none, "option WARNING is not known"⟩]⟩ ∧
    ofOutput "\x7bIn a.pl\nERROR: option WARNING is not known\n\x7d" =
      ⟨[], [⟨none, "option WARNING is not known"⟩]⟩ := by
  decide +kernel

end Report
end PrologSource
