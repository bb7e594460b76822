import PrologSource.Mark
import PrologSource.Text.Lines
import PrologSource.Tokenize

namespace PrologSource

/-- A name on a line: `column` is that of its first character, and `endColumn` the one after a name
spelled without quotes. -/
structure MarkedPlace where
  line : Nat
  column : Nat
  endColumn : Nat
  deriving DecidableEq, Repr

namespace Mark

def excerptLines (m : Mark) (source : String) : List (List Char) :=
  ((textLines source.toList).drop m.firstLine).take (m.lastLine - m.firstLine + 1)

def excerpt (m : Mark) (source : String) : String :=
  String.ofList (List.intercalate ['\n'] (m.excerptLines source))

def placeOf (m : Mark) (t : Token) : MarkedPlace :=
  ⟨m.firstLine + t.position.line, t.position.column.toNat,
    t.position.column.toNat + m.name.length⟩

/-- The place of the marked call. Only the lines of the mark are read, as if they were a text of
their own. -/
def checkedResolve (m : Mark) (source : String) : Except TokenizerFault (Option MarkedPlace) :=
  if m.lastLine < m.firstLine then .ok none
  else if m.excerptLines source = [] then .ok none
  else (checkedTokens 1 (m.excerpt source)).map fun tokens =>
    (Token.nthAtom? tokens m.name m.occurrence).map m.placeOf

/-- The place of the marked call; no source is at fault. -/
def resolve (m : Mark) (source : String) : Option MarkedPlace :=
  match m.checkedResolve source with
  | .ok place => place
  | .error _ => none

end Mark
end PrologSource
