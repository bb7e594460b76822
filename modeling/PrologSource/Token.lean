import PrologSource.Position
import PrologSource.Radix
import PrologSource.Text.Quoted

namespace PrologSource

/-- What a token is. An opening parenthesis right after a token is told from one after layout,
since only the first opens an argument list. -/
inductive TokenKind
  | atom | badAtom | number | string | var | soloNoLayout | solo | endOfFile
  deriving DecidableEq, Repr

namespace TokenKind

def name : TokenKind → String
  | .atom => "atom"
  | .badAtom => "badatom"
  | .number => "number"
  | .string => "string"
  | .var => "variable"
  | .soloNoLayout => "solo_nolayout"
  | .solo => "solo"
  | .endOfFile => "end_of_file"

def all : List TokenKind :=
  [.atom, .badAtom, .number, .string, .var, .soloNoLayout, .solo, .endOfFile]

def ofName? (s : String) : Option TokenKind := all.find? fun k => k.name = s

end TokenKind

/-- A token, with its decoded text and the place of its first character. -/
structure Token where
  kind : TokenKind
  text : String
  position : Position
  deriving DecidableEq, Repr

namespace Token

def runawayText : String := "/* ..."

def isAtom (t : Token) (name : String) : Bool := t.kind = .atom && t.text = name

def isRunaway (t : Token) : Bool := t.kind = .solo && t.text = runawayText

def nthAtom? (tokens : List Token) (name : String) : Nat → Option Token
  | 0 => none
  | n + 1 => (tokens.filter (·.isAtom name))[n]?

/-- Line and column, the kind and the text in quotes, with tabs between. -/
def listing (t : Token) : String :=
  String.ofList (decimal t.position.line ++ ':' :: signedDecimal t.position.column ++
    '\t' :: t.kind.name.toList ++ '\t' :: quoted t.text.toList)

/-! Source text made from tokens. -/

def enquote (q : Char) (cs : List Char) : List Char :=
  q :: (cs.flatMap (fun c => if c = q ∨ c = '\\' then [c, c] else [c]) ++ [q])

def spelling (t : Token) : List Char :=
  match t.kind with
  | .atom => enquote '\'' t.text.toList
  | .string => enquote '"' t.text.toList
  | _ => t.text.toList

/-- A space for every token but one that must follow the token before it closely. -/
def spacing (t : Token) : List Char := if t.kind = .soloNoLayout then [] else [' ']

def respell (tokens : List Token) : String :=
  String.ofList ((tokens.filter (·.kind ≠ .endOfFile)).flatMap fun t => t.spacing ++ t.spelling)

end Token
end PrologSource
