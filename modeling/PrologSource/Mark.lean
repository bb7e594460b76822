import PrologSource.Text.Decimal

/-! Trace lines. A line carries a mark where it has `In `, a file, ` (`, two line numbers with a
dash between, `) `, a name, a dash and a number. The earliest `In ` that fits counts, with the
longest file for it and the shortest name for that file. -/
namespace PrologSource

/-- A call within some lines of a source file: the `occurrence`-th of the predicate `name`, counted
from one. Lines count from zero, and both ends belong to the range. -/
structure Mark where
  file : String
  firstLine : Nat
  lastLine : Nat
  name : String
  occurrence : Nat
  deriving DecidableEq, Repr

/-- The path under which a drive is mounted: a first component that ends in a colon names a drive
below `/mnt`. Any other path stays as it is. -/
def mountDrive (path : List Char) : List Char :=
  let first := path.takeWhile (· ≠ '/')
  if first.getLast? = some ':' then
    "/mnt/".toList ++ first.dropLast ++ path.dropWhile (· ≠ '/')
  else path

structure MarkFields where
  file : List Char
  first : List Char
  last : List Char
  name : List Char
  occurrence : List Char
  deriving DecidableEq, Repr

namespace MarkFields

def spelling (f : MarkFields) : List Char :=
  f.file ++ ' ' :: '(' :: f.first ++ '-' :: f.last ++ ')' :: ' ' :: f.name ++ '-' :: f.occurrence

def lineNumbers (first last : List Char) : List Char :=
  ' ' :: '(' :: (first ++ '-' :: (last ++ [')', ' ']))

/-- Parts that the line they stand on gives back: the name, with the space before it, holds nothing
that looks like line numbers or like a dash and an occurrence. -/
structure IsPlain (f : MarkFields) : Prop where
  file : '\n' ∉ f.file
  first : IsDecimal f.first
  last : IsDecimal f.last
  name : '\n' ∉ f.name
  dash : ∀ d, isDigit d → ¬ ['-', d] <:+: f.name
  numbers : ∀ a b, IsDecimal a → IsDecimal b → ¬ lineNumbers a b <:+: ' ' :: f.name
  occurrence : IsDecimal f.occurrence

/-- The shortest name on the line with a dash and a number after it, and the number. -/
def name? : List Char → Option (List Char × List Char)
  | [] => none
  | c :: rest =>
    if c = '-' ∧ rest.takeWhile isDigit ≠ [] then some ([], rest.takeWhile isDigit)
    else if c = '\n' then none
    else (name? rest).map fun found => (c :: found.1, found.2)

def afterFile? (cs : List Char) : Option MarkFields := do
  let (range, cs) ← digitRange? (← [' ', '('].isPrefixOf? cs)
  let found ← name? (← [')', ' '].isPrefixOf? cs)
  return ⟨[], range.1, range.2, found.1, found.2⟩

/-- The parts from the file on, with the longest file on the line that fits. -/
def file? : List Char → Option MarkFields
  | [] => none
  | c :: rest =>
    match if c = '\n' then none else file? rest with
    | some fields => some { fields with file := c :: fields.file }
    | none => afterFile? (c :: rest)

def find? : List Char → Option MarkFields
  | [] => none
  | c :: rest =>
    match (['I', 'n', ' '].isPrefixOf? (c :: rest)).bind file? with
    | some fields => some fields
    | none => find? rest

end MarkFields

namespace Mark

def fields (m : Mark) : MarkFields :=
  ⟨m.file.toList, decimal (m.firstLine + 1), decimal (m.lastLine + 1), m.name.toList,
    decimal m.occurrence⟩

def line (m : Mark) : String := String.ofList ("   In ".toList ++ m.fields.spelling)

def isMarkLine (line : String) : Bool := (MarkFields.find? line.toList).isSome

/-- The mark that the parts spell. Lines count from one in a trace, and a line 0 counts as the
first. -/
def ofFields? (fields : MarkFields) : Option Mark := do
  let first ← word? fields.first
  let last ← word? fields.last
  let occurrence ← word? fields.occurrence
  return ⟨String.ofList (mountDrive fields.file), first - 1, last - 1,
    String.ofList fields.name, occurrence⟩

/-- The mark that a line carries. There is none if one of its numbers takes more than 64 bits. -/
def ofLine? (line : String) : Option Mark := (MarkFields.find? line.toList).bind ofFields?

end Mark

end PrologSource
