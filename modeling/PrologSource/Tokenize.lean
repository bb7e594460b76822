import PrologSource.Scanner.Number

namespace PrologSource

def TokenizerFault.unrecognized (p : Position) (c : Char) : TokenizerFault :=
  within ⟨"unrecognized character " ++ String.ofList (quotedCharacter c)⟩ s!"at {p}"

namespace Scanner

/-- Skips a block comment from the star of its opening on; such comments do not nest. Each turn
stops at a star, steps over the character behind it, and then over a run of stars. -/
def skipComment (s : Scanner) : Scanner :=
  let t := (s.skipTo '*').next
  match _front : t.ch with
  | none => t.addToken .solo Token.runawayText.toList
  | some _ =>
    let u := t.skipWhile (· = '*')
    if u.ch = some '/' then u.next.readAfterLayout else u.skipComment
termination_by s.text.length
decreasing_by
  exact Nat.lt_of_le_of_lt (length_skipWhile_le _ _)
    (Nat.lt_of_lt_of_le (length_next_lt_of_next ‹_›)
      (Nat.le_trans (length_skipTo_le _ s) (length_next_le s)))

def readSlash (s : Scanner) : Scanner :=
  if s.ch = some '*' then s.skipComment else s.readSymbol '/'

def readPoint (s : Scanner) : Scanner :=
  match s.ch with
  | none => s.addToken .solo ['.']
  | some c =>
    if c = '%' then (s.addToken .solo ['.']).skipLine
    else if isLayout c then s.addToken .solo ['.']
    else s.readSymbol '.'

def solos : List Char := [')', ',', '[', ']', '{', '|', '}']

def readMark (c : Char) (s : Scanner) : Except TokenizerFault Scanner :=
  if c = '!' ∨ c = ';' then .ok (s.addToken .atom [c]).next
  else if c = '%' then .ok s.skipLine.readAfterLayout
  else if c = '(' then .ok (s.addToken .soloNoLayout [c]).next
  else if c ∈ solos then .ok (s.addToken .solo [c]).next
  else if c = '"' then .ok (s.next.addQuoted .double .string)
  else if c = '\'' then .ok (s.next.addQuoted .single .atom)
  else .error (.unrecognized s.saved c)

def dispatch (c : Char) (s : Scanner) : Except TokenizerFault Scanner :=
  match CharClass.ofChar c with
  | .layout => .ok s.readAfterLayout
  | .lower => .ok (s.next.readName .atom c)
  | .upper => .ok (s.next.readName .var c)
  | .digit => s.readNumber
  | .symbol =>
    if c = '/' then .ok s.next.readSlash
    else if c = '.' then .ok s.next.readPoint
    else .ok (s.next.readSymbol c)
  | .punctuation => s.readMark c

theorem length_skipComment_le (s : Scanner) : s.skipComment.text.length ≤ s.text.length := by
  have reach (s : Scanner) : (s.skipTo '*').next.text.length ≤ s.text.length :=
    Nat.le_trans (length_next_le _) (Nat.le_trans (length_skipTo_le '*' s) (length_next_le s))
  fun_induction skipComment s <;>
    grind [length_skipWhile_le, length_readAfterLayout_le, length_next_le, text_addToken]

theorem length_readSlash_le (s : Scanner) : s.readSlash.text.length ≤ s.text.length := by
  grind [readSlash, readSymbol, length_skipComment_le, length_addRun_le]

theorem length_readPoint_le (s : Scanner) : s.readPoint.text.length ≤ s.text.length := by
  grind [readPoint, skipLine, readSymbol, length_skipTo_le, length_addRun_le, length_next_le,
    text_addToken]

theorem length_readMark_lt {s t : Scanner} {c : Char} (front : s.ch = some c)
    (h : s.readMark c = .ok t) : t.text.length < s.text.length := by
  have step := length_next_lt front
  have gap (t : Scanner) : t.readAfterLayout.text.length ≤ t.text.length :=
    Nat.le_trans (length_readAfterLayout_le t) (length_skipWhile_le isLayout t)
  have single (kind : TokenKind) :
      (s.addToken kind [c]).next.text.length = s.next.text.length := by simp [next]
  have := length_skipTo_le '\n' s
  have := length_readQuoted_le .single s.next
  have := length_readQuoted_le .double s.next
  grind [readMark, skipLine, addQuoted, text_addToken]

theorem length_dispatch_lt {s t : Scanner} {c : Char} (front : s.ch = some c)
    (h : s.dispatch c = .ok t) : t.text.length < s.text.length := by
  have step := length_next_lt front
  unfold dispatch at h
  split at h
  · rename_i layout
    cases h
    exact Nat.lt_of_le_of_lt (length_readAfterLayout_le s)
      (length_readWhile_lt front (by simp [isLayout, layout]))
  · cases h
    exact Nat.lt_of_le_of_lt (length_addRun_le isAlphanumeric .atom c s.next) step
  · cases h
    exact Nat.lt_of_le_of_lt (length_addRun_le isAlphanumeric .var c s.next) step
  · rename_i digit
    exact length_readNumber_lt front (by simp [isDigit, digit]) h
  · have := length_readSlash_le s.next
    have := length_readPoint_le s.next
    have := length_addRun_le isSymbol .atom c s.next
    grind [readSymbol]
  · exact length_readMark_lt front h

def readTokens (s : Scanner) : Except TokenizerFault Scanner :=
  match _front : s.ch with
  | none => .ok s.save
  | some c =>
    match _done : s.save.dispatch c with
    | .error fault => .error fault
    | .ok t => t.readTokens
termination_by s.text.length
decreasing_by exact length_dispatch_lt (s := s.save) ‹_› ‹_›

end Scanner

def checkedTokens (tabWidth : Int) (text : String) : Except TokenizerFault (List Token) :=
  (Scanner.start tabWidth text.toList).readTokens.map fun s =>
    (s.addToken .endOfFile []).tokens.toList

/-- The tokens of a text; no text is at fault. -/
def tokenizeWith (tabWidth : Int) (text : String) : List Token :=
  match checkedTokens tabWidth text with
  | .ok tokens => tokens
  | .error _ => []

def tokenize (text : String) : List Token := tokenizeWith 1 text

end PrologSource
