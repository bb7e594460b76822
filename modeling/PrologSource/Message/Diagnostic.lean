import PrologSource.Message.Block
import PrologSource.Text.Decimal
import PrologSource.Text.Unicode

namespace PrologSource

/-- Source lines that a message is about, counted from one; both ends belong to the range. -/
structure LineRange where
  first : Nat
  last : Nat
  deriving DecidableEq, Repr

instance : ToString LineRange := ⟨fun r => s!"{r.first}-{r.last}"⟩

inductive Severity
  | error | warning
  deriving DecidableEq, Repr

structure Diagnostic where
  lines : Option LineRange
  message : String
  deriving DecidableEq, Repr

namespace Diagnostic

def isLocated (d : Diagnostic) : Bool := d.lines.isSome

def lineNumbers? (cs : List Char) : Option ((List Char × List Char) × List Char) := do
  let (range, cs) ← digitRange? (← "(lns ".toList.isPrefixOf? cs)
  return (range, ← [')'].isPrefixOf? cs)

def range? (numbers : List Char × List Char) : Option LineRange := do
  return ⟨← word? numbers.1, ← word? numbers.2⟩

/-- The diagnostic in the text of a message. Line numbers at its front are no part of the message,
even if they are too large to be used. -/
def ofText (cs : List Char) : Diagnostic :=
  match lineNumbers? (trimSpace cs) with
  | some (numbers, rest) => ⟨range? numbers, String.ofList (rest.dropWhile isSpace)⟩
  | none => ⟨none, String.ofList (trimSpace cs)⟩

def mentions (word : List Char) : List Char → Bool
  | [] => word.isEmpty
  | c :: rest => word.isPrefixOf (c :: rest) || mentions word rest

/-- The severity of a part of a block, if it is a message. One that mentions warnings is a warning. -/
def severity? (part : List Char) : Option Severity :=
  if mentions "WARNING".toList part then some .warning
  else if mentions "ERROR".toList part then some .error
  else none

def afterColon (cs : List Char) : List Char :=
  if ':' ∈ cs then (cs.dropWhile (· ≠ ':')).tail else cs

def ofPart? (part : List Char) : Option (Severity × Diagnostic) :=
  (severity? part).map fun s => (s, ofText (afterColon part))

end Diagnostic

structure Report where
  errors : List Diagnostic
  warnings : List Diagnostic
  deriving DecidableEq, Repr

namespace Report

def isEmpty (r : Report) : Bool := r.errors.isEmpty && r.warnings.isEmpty

def messages (output : List Char) : List (Severity × Diagnostic) :=
  (Block.ofText output).flatMap fun b => b.parts.filterMap Diagnostic.ofPart?

def ofMessages (found : List (Severity × Diagnostic)) : Report :=
  ⟨(found.filter (·.1 = .error)).map (·.2), (found.filter (·.1 = .warning)).map (·.2)⟩

def ofOutput (output : String) : Report := ofMessages (messages output.toList)

end Report
end PrologSource
