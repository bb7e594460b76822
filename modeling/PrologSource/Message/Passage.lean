import PrologSource.Message.Diagnostic

/-! The output of the compiler as it is written: text of other kinds, blocks of messages under a
context line, and messages in a block of their own. -/
namespace PrologSource

/-- A message as the compiler writes it; `numbers` are the decimal numbers of its first and last
line. -/
structure Message where
  severity : Severity
  numbers : Option (List Char × List Char)
  text : List Char
  deriving DecidableEq, Repr

namespace Message

def word : Severity → List Char
  | .error => Keyword.text .error
  | .warning => Keyword.text .warning

def lineNumbers (first last : List Char) : List Char :=
  "(lns ".toList ++ (first ++ '-' :: (last ++ [')']))

def body (m : Message) : List Char :=
  match m.numbers with
  | none => m.text
  | some (first, last) => lineNumbers first last ++ ' ' :: m.text

def spelling (m : Message) : List Char := word m.severity ++ ':' :: ' ' :: m.body

def diagnostic (m : Message) : Diagnostic :=
  ⟨m.numbers.map fun n => ⟨valueIn 10 n.1, valueIn 10 n.2⟩, String.ofList m.text⟩

def IsNumber (digits : List Char) : Prop := IsDecimal digits ∧ valueIn 10 digits < wordBound

instance (digits : List Char) : Decidable (IsNumber digits) := inferInstanceAs (Decidable (_ ∧ _))

/-- A message that a block can hold: its text has no braces and no white space at its ends, that of
an error does not speak of warnings, and it begins with line numbers only where they are meant. -/
structure IsPlain (m : Message) : Prop where
  no_brace : '{' ∉ m.text ∧ '}' ∉ m.text
  trimmed : IsTrimmed m.text
  severity : m.severity = .error → ¬ word .warning <:+: m.text
  numbers : match m.numbers with
    | none => ∀ first last, IsDecimal first → IsDecimal last → ¬ lineNumbers first last <+: m.text
    | some (first, last) => IsNumber first ∧ IsNumber last

end Message

inductive Passage
  /-- Text outside blocks. -/
  | plain (text : List Char)
  /-- A block with a context line and messages, one on each line. -/
  | context (k : Keyword) (header : List Char) (messages : List Message)
  /-- A block with one message. -/
  | single (m : Message)
  deriving DecidableEq, Repr

namespace Passage

def spelling : Passage → List Char
  | .plain text => text
  | .context k header messages =>
    '{' :: (k.text ++ ' ' :: header ++ '\n' ::
      messages.flatMap (fun m => m.spelling ++ ['\n']) ++ ['}'])
  | .single m => '{' :: (m.spelling ++ ['}'])

def messages : Passage → List Message
  | .plain _ => []
  | .context _ _ messages => messages
  | .single m => [m]

/-- A passage as the compiler writes it: no text outside blocks opens one, and a context line holds
nothing that could be taken for a message. -/
def IsPlain : Passage → Prop
  | .plain text => '{' ∉ text
  | .context k header messages =>
    k.isContext ∧ '\n' ∉ header ∧ '{' ∉ header ∧ '}' ∉ header ∧
      (∀ s, ¬ Message.word s <:+: header) ∧ ∀ m ∈ messages, m.IsPlain ∧ '\n' ∉ m.text
  | .single m => m.IsPlain

end Passage
end PrologSource
