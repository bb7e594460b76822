import PrologSource.Lexeme.Numeral
import PrologSource.Token

namespace PrologSource

inductive Lexeme
  /-- A name: letters, digits and underscores. -/
  | name (head : Char) (tail : List Char)
  /-- A run of symbol characters. -/
  | graphic (head : Char) (tail : List Char)
  /-- An exclamation mark or a semicolon, each an atom by itself. -/
  | soloAtom (c : Char)
  /-- A comma, a bar, or a bracket other than an opening parenthesis. -/
  | solo (c : Char)
  | openParen
  /-- The point that ends a clause. -/
  | fullStop
  | number (n : Numeral)
  | quoted (q : Quotation)
  /-- A block comment without an end; `body` is all that follows its opening. -/
  | runaway (body : List Char)
  deriving DecidableEq, Repr

namespace Lexeme

def spelling : Lexeme → List Char
  | .name head tail | .graphic head tail => head :: tail
  | .soloAtom c | .solo c => [c]
  | .openParen => ['(']
  | .fullStop => ['.']
  | .number n => n.spelling
  | .quoted q => q.spelling
  | .runaway body => '/' :: '*' :: body

/-- The kind of the token. An opening parenthesis has its own kind unless a gap stands before. -/
def kind (afterGap : Bool) : Lexeme → TokenKind
  | .name head _ => if isUpper head then .var else .atom
  | .graphic _ _ | .soloAtom _ => .atom
  | .solo _ | .fullStop | .runaway _ => .solo
  | .openParen => if afterGap then .solo else .soloNoLayout
  | .number _ => .number
  | .quoted q => match q.quote with
    | .single => .atom
    | .double => .string

def text : Lexeme → List Char
  | .number n => n.text
  | .quoted q => q.content
  | .runaway _ => Token.runawayText.toList
  | l => l.spelling

end Lexeme
end PrologSource
