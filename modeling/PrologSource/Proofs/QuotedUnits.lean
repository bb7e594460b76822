import PrologSource.Proofs.CodeWord
import PrologSource.Proofs.Lookahead.Quotation
import PrologSource.Proofs.Placement

namespace PrologSource
variable {q : Quote} {rest unit body text : List Char}

/-- The character `c` has the code `n`, or is U+FFFD where no scalar value has it. -/
def HasCode (n : Nat) (c : Char) : Prop := if n.isValidChar then c.toNat = n else c = '\uFFFD'

instance (n : Nat) (c : Char) : Decidable (HasCode n c) :=
  inferInstanceAs (Decidable (if n.isValidChar then _ else _))

def controlLetters : List (Char × Char) :=
  [('a', '\x07'), ('b', '\x08'), ('t', '\t'), ('n', '\n'), ('v', '\x0b'), ('f', '\x0c'),
    ('r', '\r'), ('e', '\x1b'), ('s', ' '), ('d', '\x7f')]

/-- Between marks `q` and before `rest`, the characters `unit` belong together and stand for
`text`, which is one character or none. -/
inductive IsUnit (q : Quote) (rest : List Char) : (unit text : List Char) → Prop
  | raw {c : Char} : c ≠ q.char → c ≠ '\\' → IsUnit q rest [c] [c]
  | doubled : IsUnit q rest [q.char, q.char] [q.char]
  | joined {c : Char} : isLayout c → IsUnit q rest ['\\', c] []
  | skipped {layout : List Char} : (∀ c ∈ layout, isLayout c) → ¬ rest.head?.any isLayout →
      IsUnit q rest ('\\' :: 'c' :: layout) []
  | delete : IsUnit q rest ['\\', '^', '?'] ['\x7f']
  | null : IsUnit q rest ['\\', '^', '@'] ['\x00']
  | control {c : Char} : isLetter c ∨ c = '\\' ∨ c = '^' →
      IsUnit q rest ['\\', '^', c] [Char.ofNat (c.toNat % 32)]
  /-- The caret stands for itself before a character that names no control character. -/
  | caret : (∀ c ∈ rest.head?, c ∉ ['?', '@', '\\', '^'] ∧ ¬ isLetter c) →
      IsUnit q rest ['\\', '^'] ['^']
  | octal {digits : List Char} {c : Char} : digits ≠ [] → (∀ d ∈ digits, '0' ≤ d ∧ d ≤ '7') →
      HasCode (valueIn 8 digits) c → IsUnit q rest ('\\' :: (digits ++ ['\\'])) [c]
  | hex {digits : List Char} {c : Char} : (∀ d ∈ digits, isDigitIn 16 d) →
      HasCode (valueIn 16 digits) c → IsUnit q rest ('\\' :: 'x' :: (digits ++ ['\\'])) [c]
  | letter {letter c : Char} : (letter, c) ∈ controlLetters → IsUnit q rest ['\\', letter] [c]
  | other {c : Char} : ¬ isLayout c → c ∉ ['^', 'x', 'c'] → ¬ ('0' ≤ c ∧ c ≤ '7') →
      (∀ p ∈ controlLetters, c ≠ p.1) → IsUnit q rest ['\\', c] [c]

inductive AreUnits (q : Quote) (rest : List Char) : (body text : List Char) → Prop
  | empty : AreUnits q rest [] []
  | cons {unit meaning body text : List Char} : IsUnit q (body ++ rest) unit meaning →
      AreUnits q rest body text → AreUnits q rest (unit ++ body) (meaning ++ text)

theorem HasCode.charOfCode_eq {n : Nat} {c : Char} (h : HasCode n c) : charOfCode n = c := by
  unfold HasCode at h
  unfold charOfCode
  split at h
  · rename_i valid
    rw [if_pos valid, ← h, Char.ofNat_toNat]
  · rename_i invalid
    rw [if_neg invalid, h]

namespace Escape
variable {c : Char}

theorem read_joined (h : isLayout c) (rest : List Char) : read (c :: rest) = (.joined c, rest) := by
  rw [read, if_pos h]

theorem read_skipped {layout : List Char} (all : ∀ c ∈ layout, isLayout c)
    (stop : ¬ rest.head?.any isLayout) :
    read ('c' :: (layout ++ rest)) = (.skipped layout, rest) := by
  obtain ⟨run, left⟩ := takeWhile_run all stop
  change (skipped ((layout ++ rest).takeWhile isLayout), (layout ++ rest).dropWhile isLayout) = _
  rw [run, left]

theorem namesControl_iff (c : Char) :
    namesControl c ↔ c ∈ ['?', '@', '\\', '^'] ∨ isLetter c := by
  simp only [namesControl, Bool.or_eq_true, decide_eq_true_eq, List.mem_cons, List.not_mem_nil,
    or_false, or_assoc]
  grind

theorem read_control (h : namesControl c) (rest : List Char) :
    read ('^' :: c :: rest) = (.control c, rest) := by
  change readControl (c :: rest) = _
  rw [readControl, if_pos h]

theorem read_caret (h : ∀ c ∈ rest.head?, ¬ namesControl c) :
    read ('^' :: rest) = (.caret, rest) := by
  change readControl rest = _
  cases rest with
  | nil => rfl
  | cons c rest => rw [readControl, if_neg (h c rfl)]

theorem read_octal {digit : Char} {body : List Char} (octal : '0' ≤ digit ∧ digit ≤ '7')
    (inside : '\\' ∉ body) (rest : List Char) :
    read (digit :: (body ++ '\\' :: rest)) = (.octal (digit :: body) true, rest) := by
  have decimal : isDigit digit :=
    (isDigit_iff digit).2 ⟨octal.1, Char.le_trans octal.2 (by decide)⟩
  have layout : ¬ isLayout digit := by
    intro layout
    simp only [isDigit, isLayout, decide_eq_true_eq] at decimal layout
    rw [decimal] at layout
    cases layout
  have caret : digit ≠ '^' := by
    rintro rfl
    exact absurd octal (by decide)
  have whole : '\\' ∉ digit :: body := by
    rw [List.mem_cons, not_or]
    refine ⟨?_, inside⟩
    rintro rfl
    exact absurd octal (by decide)
  rw [read, if_neg layout, if_neg caret, if_pos octal]
  exact readCode_append .octal whole rest

theorem read_hex {body : List Char} (inside : '\\' ∉ body) (rest : List Char) :
    read ('x' :: (body ++ '\\' :: rest)) = (.hex body true, rest) :=
  readCode_append .hex inside rest

theorem read_symbolic (layout : ¬ isLayout c) (form : c ∉ ['^', 'x', 'c'])
    (octal : ¬ ('0' ≤ c ∧ c ≤ '7')) (rest : List Char) :
    read (c :: rest) = (.symbolic c, rest) := by
  simp only [List.mem_cons, List.not_mem_nil, or_false, not_or] at form
  rw [read, if_neg layout, if_neg form.1, if_neg octal, if_neg form.2.1, if_neg form.2.2]

/-- Only the letters of the table stand for others. -/
theorem symbolicOf_eq_self (h : ∀ p ∈ controlLetters, c ≠ p.1) : symbolicOf c = c := by
  simp only [controlLetters, List.forall_mem_cons] at h
  unfold symbolicOf
  split <;> simp_all

theorem symbolicOf_letter {letter : Char} (h : (letter, c) ∈ controlLetters) :
    symbolicOf letter = c ∧ ¬ isLayout letter ∧ letter ∉ ['^', 'x', 'c'] ∧
      ¬ ('0' ≤ letter ∧ letter ≤ '7') := by
  have all : controlLetters.all (fun p => decide (symbolicOf p.1 = p.2 ∧ ¬ isLayout p.1 ∧
      p.1 ∉ ['^', 'x', 'c'] ∧ ¬ ('0' ≤ p.1 ∧ p.1 ≤ '7'))) = true := by decide
  exact of_decide_eq_true (List.all_eq_true.1 all _ h)

end Escape

/-- A unit is a character for itself, the mark twice, or a backslash with an escape that is read
behind it. -/
theorem IsUnit.form (h : IsUnit q rest unit text) :
    (∃ c, c ≠ q.char ∧ c ≠ '\\' ∧ unit = [c] ∧ text = [c]) ∨
      (unit = [q.char, q.char] ∧ text = [q.char]) ∨
      ∃ e spelled, unit = '\\' :: spelled ∧ Escape.read (spelled ++ rest) = (e, rest) ∧
        e.meaning.toList = text := by
  cases h with
  | raw mark plain => exact .inl ⟨_, mark, plain, rfl, rfl⟩
  | doubled => exact .inr (.inl ⟨rfl, rfl⟩)
  | joined layout => exact .inr (.inr ⟨_, _, rfl, Escape.read_joined layout rest, rfl⟩)
  | skipped all stop => exact .inr (.inr ⟨_, _, rfl, Escape.read_skipped all stop, rfl⟩)
  | delete => exact .inr (.inr ⟨_, _, rfl, Escape.read_control (by decide) rest, rfl⟩)
  | null => exact .inr (.inr ⟨_, _, rfl, Escape.read_control (by decide) rest, rfl⟩)
  | @control c names =>
    have letter : Escape.namesControl c := by
      rw [Escape.namesControl_iff]
      rcases names with letter | rfl | rfl
      · exact .inr letter
      · exact .inl (by decide)
      · exact .inl (by decide)
    have apart : c ≠ '?' := by
      rintro rfl
      exact absurd names (by decide)
    refine .inr (.inr ⟨_, _, rfl, Escape.read_control letter rest, ?_⟩)
    change [Escape.controlOf c] = _
    rw [Escape.controlOf, if_neg apart]
  | caret stop =>
    have none : ∀ c ∈ rest.head?, ¬ Escape.namesControl c := by
      intro c hc names
      obtain ⟨other, letter⟩ := stop c hc
      exact ((Escape.namesControl_iff c).1 names).elim other letter
    exact .inr (.inr ⟨_, _, rfl, Escape.read_caret none, rfl⟩)
  | @octal digits c nonempty all code =>
    have inside : '\\' ∉ digits := fun mem => absurd (all _ mem) (by decide)
    obtain ⟨digit, body, rfl⟩ := List.exists_cons_of_ne_nil nonempty
    have read := Escape.read_octal (all digit List.mem_cons_self)
      (fun mem => inside (List.mem_cons_of_mem digit mem)) rest
    refine .inr (.inr ⟨_, _, rfl, by rwa [List.append_assoc], ?_⟩)
    rw [Escape.meaning_code .octal, code.charOfCode_eq]
    rfl
  | @hex digits c all code =>
    have inside : '\\' ∉ digits := fun mem => absurd (all _ mem) (by decide)
    have read := Escape.read_hex inside rest
    refine .inr (.inr ⟨_, _, rfl, by rwa [List.cons_append, List.append_assoc], ?_⟩)
    rw [Escape.meaning_code .hex, code.charOfCode_eq]
    rfl
  | letter known =>
    obtain ⟨meaning, layout, form, octal⟩ := Escape.symbolicOf_letter known
    refine .inr (.inr ⟨_, _, rfl, Escape.read_symbolic layout form octal rest, ?_⟩)
    change [Escape.symbolicOf _] = _
    rw [meaning]
  | other layout form octal unknown =>
    refine .inr (.inr ⟨_, _, rfl, Escape.read_symbolic layout form octal rest, ?_⟩)
    change [Escape.symbolicOf _] = _
    rw [Escape.symbolicOf_eq_self unknown]

namespace Quotation

theorem read_escape {e : Escape} {spelled : List Char}
    (h : Escape.read (spelled ++ rest) = (e, rest)) (q : Quote) :
    read q ('\\' :: spelled ++ rest) = ((read q rest).1.push (.escape e), (read q rest).2) := by
  rw [List.cons_append, read_backslash, h]

/-- A unit is read as one piece, which stands for the same. -/
theorem read_unit (h : IsUnit q rest unit text) : ∃ p : Piece, (p.meaning q).toList = text ∧
    read q (unit ++ rest) = ((read q rest).1.push p, (read q rest).2) := by
  rcases h.form with ⟨c, mark, plain, rfl, rfl⟩ | ⟨rfl, rfl⟩ | ⟨e, spelled, rfl, read, rfl⟩
  · exact ⟨.raw c, rfl, read_raw mark plain rest⟩
  · exact ⟨.doubled, rfl, read_doubled q rest⟩
  · exact ⟨.escape e, rfl, read_escape read q⟩

/-- Units and the mark that closes them are read to their end, and no further. -/
theorem read_units (h : AreUnits q (q.char :: rest) body text) (apart : rest.head? ≠ some q.char) :
    ∃ x : Quotation, read q (body ++ q.char :: rest) = (x, rest) ∧ x.quote = q ∧
      x.content = text := by
  induction h with
  | empty => exact ⟨⟨q, [], true⟩, read_close apart, rfl, rfl⟩
  | @cons unit meaning body text first _ ih =>
    obtain ⟨x, found, rfl, rfl⟩ := ih
    obtain ⟨p, means, read⟩ := read_unit first
    rw [found] at read
    exact ⟨x.push p, by rw [List.append_assoc, read], rfl, by rw [content_push, means]⟩

end Quotation

/-- Quote marks with units between, and no mark right behind, are one lexeme, wherever they are
read. At the front of a text they make its first token, whose text is what the units stand for; the
tokens of what follows come behind it. -/
theorem tokenizeWith_quoted (w : Int) (q : Quote) (body text rest : List Char)
    (units : AreUnits q (q.char :: rest) body text) (apart : rest.head? ≠ some q.char) :
    let quoted := q.char :: (body ++ [q.char])
    (∃ l, Item.Reads (quoted ++ rest) (.lexeme l) rest ∧ l.spelling = quoted) ∧
    tokenizeWith w (String.ofList (quoted ++ rest)) =
      ⟨if q = .single then .atom else .string, String.ofList text, ⟨0, 0⟩⟩ ::
        (Partition.ofText rest).tokens w (Position.start.walk w quoted) := by
  intro quoted
  obtain ⟨x, found, rfl, rfl⟩ := Quotation.read_units units apart
  have all := Quotation.body_read x.quote (body ++ x.quote.char :: rest)
  rw [found] at all
  have spelled : x.spelling = quoted := by
    have same : x.body ++ rest = (body ++ [x.quote.char]) ++ rest := by
      rw [all, List.append_assoc, List.singleton_append]
    rw [Quotation.spelling, List.append_cancel_right same]
  have read : Item.Reads (quoted ++ rest) (.lexeme (.quoted x)) rest := by
    rw [← spelled]
    refine Item.reads_quoted ?_
    rw [all, found]
  refine ⟨⟨_, read, spelled⟩, ?_⟩
  rw [← String.toList_ofList (l := quoted ++ rest)] at read
  rw [tokenizeWith_of_reads read rfl]
  change ⟨Lexeme.kind false (.quoted x), _, _⟩ :: (Partition.ofText rest).tokens w
    (Position.start.walk w x.spelling) = _
  rw [spelled]
  cases mark : x.quote <;> simp [Lexeme.kind, Lexeme.text, mark]

/-- Layout that is skipped, a caret before a doubled mark, a code beyond all characters, a control
letter and a character for itself. -/
theorem quoted_before_paren :
    let body := "\\c \\^''\\x110000\\\\nZ".toList
    AreUnits .single "'(".toList body "^'\uFFFD\nZ".toList ∧ "(".toList.head? ≠ some '\'' ∧
    tokenizeWith 1 (String.ofList ('\'' :: (body ++ ['\'']) ++ "(".toList)) =
      [⟨.atom, "^'\uFFFD\nZ", ⟨0, 0⟩⟩, ⟨.soloNoLayout, "(", ⟨0, 21⟩⟩,
        ⟨.endOfFile, "", ⟨0, 22⟩⟩] := by
  intro body
  have gap (rest) : IsUnit .single ('\\' :: rest) ('\\' :: 'c' :: [' ']) [] :=
    .skipped (List.all_eq_true.1 (by decide)) (by rw [List.head?_cons]; decide)
  have code (rest) : IsUnit .single rest ('\\' :: 'x' :: ("110000".toList ++ ['\\']))
      ['\uFFFD'] := .hex (List.all_eq_true.1 (by decide)) (by decide)
  have newline (rest) : IsUnit .single rest ['\\', 'n'] ['\n'] := .letter (by decide)
  have caret (rest) : IsUnit .single ('\'' :: rest) ['\\', '^'] ['^'] := by
    refine .caret ?_
    intro c front
    cases front
    decide
  have units : AreUnits .single "'(".toList body "^'\uFFFD\nZ".toList :=
    .cons (gap _) <| .cons (caret _) <| .cons .doubled <| .cons (code _) <|
      .cons (newline _) <| .cons (.raw (by decide) (by decide)) .empty
  have apart : "(".toList.head? ≠ some '\'' := by decide
  have token := (tokenizeWith_quoted 1 .single body _ "(".toList units apart).2
  refine ⟨units, apart, token.trans ?_⟩
  decide +kernel

end PrologSource
