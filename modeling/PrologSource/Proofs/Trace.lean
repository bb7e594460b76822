import PrologSource.Command
import PrologSource.Proofs.Lines
import PrologSource.Proofs.MarkChoice
import PrologSource.Proofs.Places

namespace PrologSource
namespace Outcome

@[simp] theorem after_empty (o : Outcome) : o.after "" = o := by
  rw [after, String.empty_append]

theorem after_append (first second : String) (o : Outcome) :
    o.after (first ++ second) = (o.after second).after first := by
  rw [after, after, after, String.append_assoc]

end Outcome

namespace Command

section run
variable (files : String → Option (List UInt8)) (given : Option String)

/-- Why a trace line adds nothing to the output. -/
inductive Skips (line : String) : Prop
  | unmarked : ¬ Mark.isMarkLine line → Skips line
  | tooLarge {f : MarkFields} : MarkFields.find? line.toList = some f → ¬ f.FitsWords → Skips line
  | missing {m : Mark} : Mark.ofLine? line = some m → files (sourceOf given m) = none → Skips line
  | notUtf8 {m : Mark} {bytes : List UInt8} : Mark.ofLine? line = some m →
      files (sourceOf given m) = some bytes → utf8? bytes = none → Skips line
  | unresolved {m : Mark} {bytes : List UInt8} {source : String} : Mark.ofLine? line = some m →
      files (sourceOf given m) = some bytes → utf8? bytes = some source →
      m.resolve source = none → Skips line

variable {files given} {line : String} {bytes : List UInt8} {xs ys : List (List UInt8)}

theorem isMarkLine_of_ofLine? {m : Mark} (read : Mark.ofLine? line = some m) :
    Mark.isMarkLine line := by
  obtain ⟨f, found, -⟩ := Option.bind_eq_some_iff.1 read
  rw [Mark.isMarkLine, found, Option.isSome_some]

theorem marked?_eq_some {m : Mark} {content : List UInt8} {source : String}
    (read : Mark.ofLine? line = some m) (stored : files (sourceOf given m) = some content)
    (decoded : utf8? content = some source) :
    marked? files given line = some (sourceOf given m, m, source) := by
  simp [marked?, isMarkLine_of_ofLine? read, read, stored, decoded]

theorem Skips.traced_eq (h : Skips files given line) : traced files given line = .ok "" := by
  cases h with
  | unmarked plain => simp [traced, marked?, plain]
  | tooLarge found large =>
    have unread : Mark.ofLine? line = none := by
      rw [Mark.ofLine?, found, Option.bind_some, Mark.ofFields?_eq_none_iff.2 large]
    simp [traced, marked?, unread]
  | missing read none => simp [traced, marked?, read, none]
  | notUtf8 read stored none => simp [traced, marked?, read, stored, none]
  | unresolved read stored decoded none =>
    simp [traced, marked?_eq_some read stored decoded, Mark.checkedResolve_eq, none, Except.map]

/-- A line that is not skipped adds the place of its mark. -/
theorem skips_of_traced_eq (h : traced files given line = .ok "") : Skips files given line := by
  cases read : Mark.ofLine? line with
  | none =>
    cases found : MarkFields.find? line.toList with
    | none => exact .unmarked (by simp [Mark.isMarkLine, found])
    | some f =>
      rw [Mark.ofLine?, found, Option.bind_some, Mark.ofFields?_eq_none_iff] at read
      exact .tooLarge found read
  | some m =>
    cases stored : files (sourceOf given m) with
    | none => exact .missing read stored
    | some bytes =>
      cases decoded : utf8? bytes with
      | none => exact .notUtf8 read stored decoded
      | some source =>
        cases place : m.resolve source with
        | none => exact .unresolved read stored decoded place
        | some found =>
          rw [traced, marked?_eq_some read stored decoded] at h
          simp only [Mark.checkedResolve_eq, place] at h
          have shown := congrArg String.toList (Except.ok.inj h)
          simp [placeLine] at shown

/-- No line is at fault, whatever its source. -/
theorem exists_traced (files : String → Option (List UInt8)) (given : Option String)
    (line : String) : ∃ output, traced files given line = .ok output ∧
      (output = "" ↔ Skips files given line) := by
  have total : ∃ output, traced files given line = .ok output := by
    unfold traced
    split
    · exact ⟨_, rfl⟩
    · rw [Mark.checkedResolve_eq]
      exact ⟨_, rfl⟩
  obtain ⟨output, run⟩ := total
  refine ⟨output, run, ?_, fun skips => Except.ok.inj (run.symm.trans skips.traced_eq)⟩
  rintro rfl
  exact skips_of_traced_eq run

theorem traceLines_cons (h : utf8? bytes = some line) {output : String}
    (run : traced files given line = .ok output) :
    traceLines files given (bytes :: xs) = (traceLines files given xs).after output := by
  simp only [traceLines, h, run]

theorem traceLines_cons_stopped (h : utf8? bytes = none) :
    traceLines files given (bytes :: xs) = .stopped .notUtf8 := by
  rw [traceLines, h]

/-- Behind lines that can all be read the run goes on. -/
theorem traceLines_append (valid : ∀ bytes ∈ xs, utf8? bytes ≠ none) :
    traceLines files given (xs ++ ys) =
      (traceLines files given ys).after (traceLines files given xs).output := by
  induction xs with
  | nil => exact (Outcome.after_empty _).symm
  | cons bytes xs ih =>
    obtain ⟨first, others⟩ := List.forall_mem_cons.1 valid
    obtain ⟨line, decoded⟩ := Option.ne_none_iff_exists'.1 first
    obtain ⟨output, run, -⟩ := exists_traced files given line
    rw [List.cons_append, traceLines_cons decoded run, traceLines_cons decoded run, ih others,
      ← Outcome.after_append]
    rfl

/-- A line that cannot be read ends the run. -/
theorem traceLines_append_stopped (bad : ∃ bytes ∈ xs, utf8? bytes = none) :
    traceLines files given (xs ++ ys) = traceLines files given xs ∧
      (traceLines files given xs).exitCode = 1 := by
  induction xs with
  | nil => simp at bad
  | cons bytes xs ih =>
    rw [List.cons_append]
    cases decoded : utf8? bytes with
    | none =>
      rw [traceLines_cons_stopped decoded, traceLines_cons_stopped decoded]
      exact ⟨rfl, rfl⟩
    | some line =>
      have later : ∃ bytes ∈ xs, utf8? bytes = none := by simpa [decoded] using bad
      obtain ⟨same, code⟩ := ih later
      obtain ⟨output, run, -⟩ := exists_traced files given line
      rw [traceLines_cons decoded run, traceLines_cons decoded run, same]
      exact ⟨rfl, code⟩

theorem traceLines_skip (decoded : utf8? bytes = some line) (skips : Skips files given line) :
    traceLines files given (xs ++ bytes :: ys) = traceLines files given (xs ++ ys) := by
  induction xs with
  | nil =>
    rw [List.nil_append, traceLines_cons decoded skips.traced_eq, Outcome.after_empty]
    rfl
  | cons first xs ih =>
    rw [List.cons_append, List.cons_append, traceLines, traceLines, ih]

end run

/-- A trace in two pieces, of which the first ends with its last line. If all lines of the first can
be read, the output is that of the pieces one after the other, and the run ends like that of the
second. If one cannot, the second piece does not count. A single line adds nothing just if there is
no mark on it, a number of the mark is too large, its file is missing or not UTF-8, or the call is
not there; such a line may be left out between the pieces, or at the end. -/
theorem trace_append (files : String → Option (List UInt8)) (given : Option String)
    (a b : List UInt8) (ends : a = [] ∨ a.getLast? = some 10) :
    ((∀ bytes ∈ byteLines a, utf8? bytes ≠ none) →
      (trace files given (a ++ b)).output =
        (trace files given a).output ++ (trace files given b).output ∧
      (trace files given (a ++ b)).exitCode = (trace files given b).exitCode ∧
      (trace files given (a ++ b)).complaint = (trace files given b).complaint) ∧
    ((∃ bytes ∈ byteLines a, utf8? bytes = none) →
      trace files given (a ++ b) = trace files given a ∧ (trace files given a).exitCode = 1) ∧
    ∀ l bytes line, byteLines l = [bytes] → utf8? bytes = some line →
      ((trace files given l).output = "" ↔ Skips files given line) ∧
      (Skips files given line → l.getLast? = some 10 ∨ b = [] →
        trace files given (a ++ (l ++ b)) = trace files given (a ++ b)) := by
  have cut (c : List UInt8) : byteLines (a ++ c) = byteLines a ++ byteLines c :=
    linesBy_append ends c
  refine ⟨?_, ?_, ?_⟩
  · intro valid
    have run : trace files given (a ++ b) =
        (trace files given b).after (trace files given a).output := by
      rw [trace, cut]
      exact traceLines_append valid
    rw [run]
    exact ⟨rfl, rfl, rfl⟩
  · intro bad
    rw [trace, cut]
    exact traceLines_append_stopped bad
  · intro l bytes line single decoded
    constructor
    · obtain ⟨output, run, skipped⟩ := exists_traced files given line
      rw [trace, single, traceLines_cons decoded run, ← skipped]
      change output ++ "" = "" ↔ _
      rw [String.append_empty]
    · intro skips last
      have split : byteLines (l ++ b) = byteLines l ++ byteLines b := by
        rcases last with ended | rfl
        · exact linesBy_append (.inr ended) b
        · rw [List.append_nil]
          exact (List.append_nil _).symm
      rw [trace, trace, cut, cut, split, single]
      exact traceLines_skip decoded skips

/-- A call that is found, one that is not, and a line that is not UTF-8. -/
theorem trace_with_bad_line :
    let files := fun path => if path = "f" then some "p :- q.".toUTF8.toList else none
    let a := "In f (1-1) q-1\nIn f (1-1) q-2\r\n".toUTF8.toList
    let b := 255 :: 10 :: a
    a.getLast? = some 10 ∧ (∀ bytes ∈ byteLines a, utf8? bytes ≠ none) ∧
    (∃ bytes ∈ byteLines (a ++ b), utf8? bytes = none) ∧
    (trace files none (a ++ b)).output = "f:1:6-6\n" ∧ (trace files none (a ++ b)).exitCode = 1 ∧
    trace files none (a ++ b ++ a) = trace files none (a ++ b) := by
  intro files a b
  have ends : a.getLast? = some 10 := by decide +kernel
  have ends' : (a ++ b).getLast? = some 10 := by decide +kernel
  have valid : ∀ bytes ∈ byteLines a, utf8? bytes ≠ none := by decide +kernel
  have bad : ∃ bytes ∈ byteLines (a ++ b), utf8? bytes = none := by decide +kernel
  have first : (trace files none a).output = "f:1:6-6\n" := by decide +kernel
  have second : trace files none b = .stopped .notUtf8 := by decide +kernel
  obtain ⟨output, code, -⟩ := (trace_append files none a b (.inr ends)).1 valid
  rw [first, second] at output
  rw [second] at code
  exact ⟨ends, valid, bad, output, code,
    ((trace_append files none (a ++ b) a (.inr ends')).2.1 bad).1⟩

end Command
end PrologSource
