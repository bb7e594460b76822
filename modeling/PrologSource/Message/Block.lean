import PrologSource.Text.Lines
import PrologSource.Text.Unicode

/-! Message blocks in the output of the compiler: text in braces with a keyword in it. A block ends
at the first closing brace after its keyword, whatever else it holds. -/
namespace PrologSource

inductive Keyword
  | warning | error | reading | inFile | compiling | checking | loading
  deriving DecidableEq, Repr

namespace Keyword

def all : List Keyword := [warning, error, reading, inFile, compiling, checking, loading]

def text : Keyword → List Char
  | .warning => "WARNING".toList
  | .error => "ERROR".toList
  | .reading => "Reading".toList
  | .inFile => "In".toList
  | .compiling => "Compiling".toList
  | .checking => "Checking".toList
  | .loading => "Loading".toList

/-- Whether the keyword tells what the compiler was at, so that each line is a message. -/
def isContext : Keyword → Bool
  | .warning | .error => false
  | _ => true

/-- The keyword that stands as a whole word at the front of `cs`, behind the character `before`. -/
def at? (before : Char) (cs : List Char) : Option Keyword :=
  if isWordChar before then none
  else all.find? fun k => k.text.isPrefixOf cs && !(cs.drop k.text.length).head?.any isWordChar

def first? (before : Char) : List Char → Option Keyword
  | [] => none
  | c :: rest =>
    if c = '{' ∨ c = '}' then none
    else match at? before (c :: rest) with
      | some k => some k
      | none => first? c rest

end Keyword

structure Block where
  keyword : Keyword
  body : List Char
  deriving DecidableEq, Repr

namespace Block

def spelling (b : Block) : List Char := '{' :: (b.body ++ ['}'])

def read? (cs : List Char) : Option (Block × List Char) :=
  match Keyword.first? '{' cs, cs.dropWhile (· ≠ '}') with
  | some k, _ :: rest => some (⟨k, cs.takeWhile (· ≠ '}')⟩, rest)
  | _, _ => none

theorem spelling_of_read? {cs rest : List Char} {b : Block} (h : read? cs = some (b, rest)) :
    b.spelling ++ rest = '{' :: cs := by
  unfold read? at h
  split at h
  · rename_i k e after _ found
    have parts := List.takeWhile_append_dropWhile (p := (· ≠ '}')) (l := cs)
    have stop := List.head?_dropWhile_not (· ≠ '}') cs
    rw [found] at parts stop
    cases h
    have : e = '}' := by simpa using stop
    rw [this] at parts
    simp only [spelling, List.cons_append, List.append_assoc, List.nil_append, parts]
  · cases h

theorem length_of_read? {cs rest : List Char} {b : Block} (h : read? cs = some (b, rest)) :
    rest.length < cs.length := by
  have := congrArg List.length (spelling_of_read? h)
  simp only [spelling, List.length_append, List.length_cons, List.length_nil] at this
  omega

/-- The blocks of a text, in order. A brace that opens none is skipped. -/
def ofText : List Char → List Block
  | [] => []
  | c :: rest =>
    if c = '{' then
      match _ : read? rest with
      | some (b, after) => b :: ofText after
      | none => ofText rest
    else ofText rest
termination_by cs => cs.length
decreasing_by
  · exact Nat.lt_succ_of_lt (length_of_read? ‹_›)
  · exact Nat.lt_succ_self _
  · exact Nat.lt_succ_self _

def isSyntax (b : Block) : Bool :=
  "SYNTAX ERROR".toList.isPrefixOf b.body || "SYNTAX WARNING".toList.isPrefixOf b.body

/-- The parts of a block that may be messages: its lines behind a context keyword, else the whole
body. -/
def parts (b : Block) : List (List Char) :=
  if b.isSyntax then []
  else if b.keyword.isContext then textLines ('{' :: b.body)
  else [b.body]

end Block
end PrologSource
