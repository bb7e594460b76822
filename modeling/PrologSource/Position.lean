/-! Places in a text: a line counted from 0 and a column of scalar values. A fresh place stands
one column before the first character, and reading a character moves onto it. -/
namespace PrologSource

structure Position where
  line : Nat
  column : Int
  deriving DecidableEq, Repr

namespace Position

def start : Position := ⟨0, -1⟩

/-- The place after reading one character, or after trying to read past the end of the text.
A tab moves by `tabWidth` columns, which may be none or negative. -/
def advance (tabWidth : Int) (p : Position) : Option Char → Position
  | some '\n' => ⟨p.line + 1, -1⟩
  | some '\t' => ⟨p.line, p.column + tabWidth⟩
  | _ => ⟨p.line, p.column + 1⟩

def walk (tabWidth : Int) (p : Position) (cs : List Char) : Position :=
  cs.foldl (fun q c => q.advance tabWidth (some c)) p

@[simp] theorem walk_nil (w : Int) (p : Position) : p.walk w [] = p := rfl

@[simp] theorem walk_cons (w : Int) (p : Position) (c : Char) (cs : List Char) :
    p.walk w (c :: cs) = (p.advance w (some c)).walk w cs := rfl

theorem walk_append (w : Int) (p : Position) (cs ds : List Char) :
    p.walk w (cs ++ ds) = (p.walk w cs).walk w ds := List.foldl_append

/-- Reading order: by line, then by column. -/
instance : LE Position := ⟨fun p q => p.line < q.line ∨ p.line = q.line ∧ p.column ≤ q.column⟩

instance : LT Position := ⟨fun p q => p.line < q.line ∨ p.line = q.line ∧ p.column < q.column⟩

theorem le_iff (p q : Position) :
    p ≤ q ↔ p.line < q.line ∨ p.line = q.line ∧ p.column ≤ q.column := Iff.rfl

theorem lt_iff (p q : Position) :
    p < q ↔ p.line < q.line ∨ p.line = q.line ∧ p.column < q.column := Iff.rfl

instance (p q : Position) : Decidable (p ≤ q) := decidable_of_iff' _ (le_iff p q)

instance (p q : Position) : Decidable (p < q) := decidable_of_iff' _ (lt_iff p q)

def ascending (ps : List Position) : List Position := ps.mergeSort fun p q => decide (p ≤ q)

instance : ToString Position := ⟨fun p => s!"line {p.line} column {p.column}"⟩

end Position
end PrologSource
