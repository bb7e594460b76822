import PrologSource.Text.Quoted

namespace PrologSource

inductive StreamFaultKind
  | invalidData
  deriving DecidableEq, Repr

def StreamFaultKind.name : StreamFaultKind → String
  | .invalidData => "InvalidData"

/-- A fault of an input stream, of its own or that of a reader (`ofReader`). -/
structure StreamFault where
  kind : StreamFaultKind
  message : String
  ofReader : Bool
  deriving DecidableEq, Repr

namespace StreamFault

def notUtf8 : StreamFault := ⟨.invalidData, "stream did not contain valid UTF-8", false⟩

def report (f : StreamFault) : String :=
  let (form, field) := if f.ofReader then ("Custom", "error") else ("Error", "message")
  s!"Error: {form} \x7b kind: {f.kind.name}, {field}: " ++
    String.ofList (quoted f.message.toList) ++ " \x7d"

end StreamFault

/-- A fault inside the tokenizer. No text leads to one. -/
structure TokenizerFault where
  message : String
  deriving DecidableEq, Repr

namespace TokenizerFault

def within (f : TokenizerFault) (context : String) : TokenizerFault :=
  ⟨context ++ ": " ++ f.message⟩

def report (f : TokenizerFault) : String := "internal tokenizer error: " ++ f.message

def shown (f : TokenizerFault) : String :=
  "Internal(" ++ String.ofList (quoted f.message.toList) ++ ")"

def toStreamFault (f : TokenizerFault) : StreamFault := ⟨.invalidData, f.message, true⟩

end TokenizerFault
end PrologSource
