import PrologSource.Fault
import PrologSource.Mark
import PrologSource.Mark.Resolve
import PrologSource.Message.Diagnostic
import PrologSource.Text.Lines

namespace PrologSource

/-- What a command leaves behind; `complaint` is its line on the error stream. -/
structure Outcome where
  exitCode : Nat
  output : String
  complaint : Option String
  deriving DecidableEq, Repr

namespace Outcome

def success (output : String) : Outcome := ⟨0, output, none⟩

def stopped (f : StreamFault) : Outcome := ⟨1, "", some f.report⟩

def after (output : String) (o : Outcome) : Outcome := { o with output := output ++ o.output }

end Outcome

namespace Command

def unlines (texts : List String) : String := String.join (texts.map (· ++ "\n"))

/-- Lists the tokens of the input, which counts as Latin-1 where it is not UTF-8. `tabWidth` is the
setting of the tab width, if there is one. -/
def listTokens (tabWidth : Option String) (input : List UInt8) : Outcome :=
  match tabWidth.mapM fun w => readInteger w.toList with
  | .error fault =>
    ⟨101, "", some <| "error: TAB_WIDTH is not an integer: " ++
      s!"ParseIntError \x7b kind: {fault.name} \x7d"⟩
  | .ok width =>
    match checkedTokens (width.getD 1) ((utf8? input).getD (latin1 input)) with
    | .error fault => ⟨101, "", some ("error: failed to tokenize input: " ++ fault.shown)⟩
    | .ok tokens => .success (unlines (tokens.map Token.listing))

def diagnosticLine (severity : String) (d : Diagnostic) : String :=
  match d.lines with
  | some lines => s!"{severity}: lines {lines}: {d.message}"
  | none => s!"{severity}: {d.message}"

def summarize (input : List UInt8) : Outcome :=
  match utf8? input with
  | none => .stopped .notUtf8
  | some output =>
    let report := Report.ofOutput output
    .success (unlines (report.errors.map (diagnosticLine "error") ++
      report.warnings.map (diagnosticLine "warning")))

def sourceOf (given : Option String) (m : Mark) : String := given.getD m.file

/-- The path, the mark and the source that a trace line is about; none where there is no mark on
it, or no readable file. -/
def marked? (files : String → Option (List UInt8)) (given : Option String) (line : String) :
    Option (String × Mark × String) :=
  if Mark.isMarkLine line then do
    let mark ← Mark.ofLine? line
    let path := sourceOf given mark
    return (path, mark, ← utf8? (← files path))
  else none

def placeLine (path : String) (p : MarkedPlace) : String :=
  s!"{path}:{p.line + 1}:{p.column + 1}-{p.endColumn}\n"

def traced (files : String → Option (List UInt8)) (given : Option String) (line : String) :
    Except TokenizerFault String :=
  match marked? files given line with
  | none => .ok ""
  | some (path, mark, source) => (mark.checkedResolve source).map fun place? =>
    (place?.map (placeLine path)).getD ""

/-- Follows trace lines one by one, up to the first that is not UTF-8 or whose source is at
fault. -/
def traceLines (files : String → Option (List UInt8)) (given : Option String) :
    List (List UInt8) → Outcome
  | [] => .success ""
  | bytes :: rest =>
    match utf8? bytes with
    | none => .stopped .notUtf8
    | some line =>
      match traced files given line with
      | .error fault => .stopped fault.toStreamFault
      | .ok output => (traceLines files given rest).after output

def trace (files : String → Option (List UInt8)) (given : Option String) (input : List UInt8) :
    Outcome := traceLines files given (byteLines input)

def tracedFiles (given : Option String) (input : List UInt8) : List String :=
  (byteLines input).filterMap fun bytes =>
    ((utf8? bytes).bind Mark.ofLine?).map (sourceOf given)

end Command
end PrologSource
