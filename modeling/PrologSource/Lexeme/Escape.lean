import PrologSource.CharClass
import PrologSource.Radix

namespace PrologSource

/-- What follows a backslash. The first three stand for no character. -/
inductive Escape
  /-- The end of the text. -/
  | cut
  /-- One layout character: a continuation. -/
  | joined (c : Char)
  /-- A `c`, and the layout after it. -/
  | skipped (layout : List Char)
  /-- A caret that names no control character, so that it stands for itself. -/
  | caret
  /-- A caret and the character that names a control character. -/
  | control (c : Char)
  /-- An octal code up to its closing backslash or the end of the text. -/
  | octal (body : List Char) (closed : Bool)
  /-- An `x` and a hexadecimal code up to its closing backslash or the end of the text. -/
  | hex (body : List Char) (closed : Bool)
  /-- Any other character. -/
  | symbolic (c : Char)
  deriving DecidableEq, Repr

namespace Escape

def closing (closed : Bool) : List Char := if closed then ['\\'] else []

def spelling : Escape → List Char
  | .cut => []
  | .joined c => [c]
  | .skipped layout => 'c' :: layout
  | .caret => ['^']
  | .control c => ['^', c]
  | .octal body closed => body ++ closing closed
  | .hex body closed => 'x' :: body ++ closing closed
  | .symbolic c => [c]

def namesControl (c : Char) : Bool := c = '?' || c = '@' || isLetter c || c = '\\' || c = '^'

/-- The control character that `c` names: DEL for a question mark, else the low five bits. -/
def controlOf (c : Char) : Char := if c = '?' then '\x7f' else Char.ofNat (c.toNat % 32)

def symbolicOf : Char → Char
  | 'a' => '\x07'
  | 'b' => '\x08'
  | 't' => '\t'
  | 'n' => '\n'
  | 'v' => '\x0b'
  | 'f' => '\x0c'
  | 'r' => '\r'
  | 'e' => '\x1b'
  | 's' => ' '
  | 'd' => '\x7f'
  | c => c

/-- The character that an escape stands for, if any. A code outside the scalar values stands for
U+FFFD, and characters in a code that are no digits of its base do not count. -/
def meaning : Escape → Option Char
  | .cut | .joined _ | .skipped _ => none
  | .caret => some '^'
  | .control c => some (controlOf c)
  | .octal body _ => some (charOfCode (codeIn 8 body).toNat)
  | .hex body _ => some (charOfCode (codeIn 16 body).toNat)
  | .symbolic c => some (symbolicOf c)

def readCode (make : List Char → Bool → Escape) (cs : List Char) : Escape × List Char :=
  match cs.dropWhile (· ≠ '\\') with
  | [] => (make cs false, [])
  | _ :: rest => (make (cs.takeWhile (· ≠ '\\')) true, rest)

/-- Reads what follows a caret; a character that names nothing is left alone. -/
def readControl : List Char → Escape × List Char
  | [] => (.caret, [])
  | c :: rest => if namesControl c then (.control c, rest) else (.caret, c :: rest)

def read : List Char → Escape × List Char
  | [] => (.cut, [])
  | c :: rest =>
    if isLayout c then (.joined c, rest)
    else if c = '^' then readControl rest
    else if '0' ≤ c ∧ c ≤ '7' then readCode .octal (c :: rest)
    else if c = 'x' then readCode .hex rest
    else if c = 'c' then (.skipped (rest.takeWhile isLayout), rest.dropWhile isLayout)
    else (.symbolic c, rest)

private theorem spelling_readCode (make : List Char → Bool → Escape) (lead : List Char)
    (h : ∀ body closed, (make body closed).spelling = lead ++ (body ++ closing closed))
    (cs : List Char) :
    (readCode make cs).1.spelling ++ (readCode make cs).2 = lead ++ cs := by
  have parts := List.takeWhile_append_dropWhile (p := (· ≠ '\\')) (l := cs)
  unfold readCode
  split
  · simp [h, closing]
  · rename_i b rest found
    have stop : b = '\\' := by
      have := List.head?_dropWhile_not (· ≠ '\\') cs
      rw [found] at this
      simpa using this
    rw [found, stop] at parts
    simp only [h, closing, if_true, List.append_assoc, List.cons_append, List.nil_append]
    rw [parts]

private theorem spelling_readControl (cs : List Char) :
    (readControl cs).1.spelling ++ (readControl cs).2 = '^' :: cs := by
  unfold readControl
  split
  · rfl
  · split <;> rfl

theorem spelling_read (cs : List Char) : (read cs).1.spelling ++ (read cs).2 = cs := by
  unfold read
  split
  · rfl
  · rename_i c rest
    split
    · rfl
    split
    · rename_i h
      rw [h, spelling_readControl]
    split
    · exact spelling_readCode .octal [] (fun _ _ => rfl) (c :: rest)
    split
    · rename_i h
      rw [h]
      exact spelling_readCode .hex ['x'] (fun _ _ => rfl) rest
    split
    · rename_i h
      simp [spelling, h]
    · rfl

theorem length_read_le (cs : List Char) : (read cs).2.length ≤ cs.length := by
  have := congrArg List.length (spelling_read cs)
  rw [List.length_append] at this
  omega

end Escape
end PrologSource
