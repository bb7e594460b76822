import PrologSource.Lexeme.Suffix

namespace PrologSource

structure Numeral where
  lead : List Char
  suffix : Suffix
  deriving DecidableEq, Repr

namespace Numeral

def spelling (n : Numeral) : List Char := n.lead ++ n.suffix.spelling

/-- The text of the number: a literal with a base takes the form `Base'Digits` with a decimal base,
a character gives its code, and any other literal stays as it is spelled. A character that is
missing at the end of the text counts as code 0. -/
def text (n : Numeral) : List Char :=
  match n.suffix with
  | .based digits => decimal (valueIn 10 n.lead) ++ '\'' :: digits
  | .marked m digits => decimal m.base ++ '\'' :: digits
  | .code pieces => decimal (((pieces.findSome? (Piece.meaning .single)).map Char.toNat).getD 0)
  | _ => n.spelling

def read (cs : List Char) : Numeral × List Char :=
  let lead := cs.takeWhile isDigit
  let suffix := Suffix.read lead (cs.dropWhile isDigit)
  (⟨lead, suffix.1⟩, suffix.2)

theorem spelling_read (cs : List Char) : (read cs).1.spelling ++ (read cs).2 = cs := by
  simp [read, spelling, Suffix.spelling_read, List.takeWhile_append_dropWhile]

theorem length_read_le {c : Char} (h : isDigit c) (rest : List Char) :
    (read (c :: rest)).2.length ≤ rest.length := by
  have := congrArg List.length (spelling_read (c :: rest))
  have lead : (read (c :: rest)).1.lead = c :: rest.takeWhile isDigit := by simp [read, h]
  simp only [List.length_append, spelling, lead, List.length_cons] at this
  omega

end Numeral
end PrologSource
