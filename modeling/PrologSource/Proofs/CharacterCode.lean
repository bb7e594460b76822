import PrologSource.Proofs.QuotedUnits

/-! Character codes and quoted atoms of one character. A character is spelled alike in both
(`SpellsCharacter`), and each of the two readers takes the spelling from end to end (`Decodes`).
Main statement: the code that is read is that of the character in the atom
(`tokenizeWith_characterCode`). -/
namespace PrologSource
variable {spelled unit : List Char} {c : Char}

/-- Between single quotes, and as well behind a zero and one quote, the characters `spelled` stand
for `c`: continuations, which stand for nothing, and one unit. Characters in a code that are no
digits of its base do not count. -/
inductive SpellsCharacter : (spelled : List Char) → Char → Prop
  | unit {unit : List Char} {c : Char} : IsUnit .single ['\''] unit [c] → SpellsCharacter unit c
  | octal {digit : Char} {body : List Char} : '0' ≤ digit ∧ digit ≤ '7' → '\\' ∉ body →
      SpellsCharacter ('\\' :: digit :: (body ++ ['\\'])) (charOfCode (valueIn 8 (digit :: body)))
  | hex {body : List Char} : '\\' ∉ body →
      SpellsCharacter ('\\' :: 'x' :: (body ++ ['\\'])) (charOfCode (valueIn 16 body))
  | joined {l : Char} {spelled : List Char} {c : Char} : isLayout l → SpellsCharacter spelled c →
      SpellsCharacter ('\\' :: l :: spelled) c
  | skipped {layout spelled : List Char} {c : Char} : (∀ l ∈ layout, isLayout l) →
      ¬ spelled.head?.any isLayout → SpellsCharacter spelled c →
      SpellsCharacter ('\\' :: 'c' :: (layout ++ spelled)) c

structure Decodes (spelled : List Char) (c : Char) : Prop where
  code : ∃ pieces, Suffix.readPieces spelled = (pieces, []) ∧
    pieces.findSome? (Piece.meaning .single) = some c
  quoted : ∃ x : Quotation, Quotation.read .single (spelled ++ ['\'']) = (x, []) ∧
    x.quote = .single ∧ x.content = [c]

namespace Suffix
variable {e : Escape} {rest : List Char}

theorem readPieces_escape (h : Escape.read spelled = (e, rest)) (stands : e.meaning.isSome) :
    readPieces ('\\' :: spelled) = ([.escape e], rest) := by
  rw [readPieces, if_pos rfl, h, if_pos stands]

theorem readPieces_continuation (h : Escape.read spelled = (e, rest)) (nothing : e.meaning = none) :
    readPieces ('\\' :: spelled) = (.escape e :: (readPieces rest).1, (readPieces rest).2) := by
  have stands : ¬ e.meaning.isSome := by simp [nothing]
  rw [readPieces, if_pos rfl, h, if_neg stands]

end Suffix

namespace Decodes

private theorem read_mark : Quotation.read .single ['\''] = (⟨.single, [], true⟩, []) :=
  Quotation.read_close (by decide)

theorem raw (mark : c ≠ '\'') (plain : c ≠ '\\') : Decodes [c] c where
  code := by
    refine ⟨[.raw c], ?_, rfl⟩
    rw [Suffix.readPieces, if_neg plain, if_neg fun two => mark two.1]
  quoted := by
    have read := Quotation.read_raw (q := .single) mark plain ['\'']
    rw [read_mark] at read
    exact ⟨_, read, rfl, rfl⟩

theorem doubled : Decodes ['\'', '\''] '\'' where
  code := by
    refine ⟨[.doubled], ?_, rfl⟩
    rw [Suffix.readPieces, if_neg (by decide), if_pos ⟨rfl, rfl⟩]
    rfl
  quoted := by
    have read := Quotation.read_doubled .single ['\'']
    rw [read_mark] at read
    exact ⟨_, read, rfl, rfl⟩

theorem escape {e : Escape} (code : Escape.read spelled = (e, []))
    (quoted : Escape.read (spelled ++ ['\'']) = (e, ['\''])) (means : e.meaning = some c) :
    Decodes ('\\' :: spelled) c where
  code := by
    refine ⟨[.escape e], Suffix.readPieces_escape code (by simp [means]), ?_⟩
    rw [List.findSome?_cons, Piece.meaning, means]
  quoted := by
    have read := Quotation.read_escape quoted .single
    rw [read_mark] at read
    refine ⟨_, read, rfl, ?_⟩
    rw [Quotation.content_push]
    exact congrArg (Option.toList · ++ _) means

/-- What stands for nothing is passed over. -/
theorem continuation {e : Escape} {gap : List Char}
    (code : Escape.read (gap ++ spelled) = (e, spelled))
    (quoted : Escape.read (gap ++ (spelled ++ ['\''])) = (e, spelled ++ ['\'']))
    (nothing : e.meaning = none) (h : Decodes spelled c) :
    Decodes ('\\' :: (gap ++ spelled)) c where
  code := by
    obtain ⟨pieces, read, found⟩ := h.code
    refine ⟨.escape e :: pieces, ?_, ?_⟩
    · rw [Suffix.readPieces_continuation code nothing, read]
    · rw [List.findSome?_cons, Piece.meaning, nothing, found]
  quoted := by
    obtain ⟨x, read, mark, content⟩ := h.quoted
    have all := Quotation.read_escape quoted .single
    rw [read] at all
    refine ⟨x.push (.escape e), ?_, mark, ?_⟩
    · rw [List.cons_append, List.append_assoc]
      exact all
    · rw [Quotation.content_push, content, Piece.meaning, nothing]
      rfl

/-- A unit before the closing mark is the same at the end of the text. -/
theorem of_isUnit (h : IsUnit .single ['\''] unit [c]) : Decodes unit c := by
  rcases h.form with ⟨d, mark, plain, rfl, same⟩ | ⟨rfl, same⟩ | ⟨e, spelled, rfl, read, means⟩
  · obtain rfl : c = d := List.singleton_inj.1 same
    exact raw mark plain
  · obtain rfl : c = '\'' := List.singleton_inj.1 same
    exact doubled
  · have stands : e.meaning = some c := Option.toList_eq_singleton_iff.1 means
    have ending : IsBreak [] := by
      intro d hd
      cases hd
    have code : Escape.read (spelled ++ []) = (e, [] ++ []) :=
      Escape.read_relocate (u := []) read (List.cons_ne_nil _ _) ending fun _ => by rw [stands]; rfl
    rw [List.append_nil] at code
    exact escape code read stands

theorem octal {digit : Char} {body : List Char} (first : '0' ≤ digit ∧ digit ≤ '7')
    (inside : '\\' ∉ body) : Decodes ('\\' :: digit :: (body ++ ['\\']))
      (charOfCode (valueIn 8 (digit :: body))) := by
  have read (rest : List Char) : Escape.read (digit :: (body ++ ['\\']) ++ rest) =
      (.octal (digit :: body) true, rest) := by
    rw [List.cons_append, List.append_assoc]
    exact Escape.read_octal first inside rest
  exact escape (by rw [← read [], List.append_nil]) (read _) (Escape.meaning_code .octal _ _)

theorem hex {body : List Char} (inside : '\\' ∉ body) :
    Decodes ('\\' :: 'x' :: (body ++ ['\\'])) (charOfCode (valueIn 16 body)) := by
  have read (rest : List Char) : Escape.read ('x' :: (body ++ ['\\']) ++ rest) =
      (.hex body true, rest) := by
    rw [List.cons_append, List.append_assoc]
    exact Escape.read_hex inside rest
  exact escape (by rw [← read [], List.append_nil]) (read _) (Escape.meaning_code .hex _ _)

theorem joined {l : Char} (layout : isLayout l) (h : Decodes spelled c) :
    Decodes ('\\' :: l :: spelled) c := by
  have read (rest : List Char) : Escape.read ([l] ++ rest) = (.joined l, rest) :=
    Escape.read_joined layout rest
  exact continuation (read _) (read _) rfl h

theorem skipped {layout : List Char} (all : ∀ l ∈ layout, isLayout l)
    (stop : ¬ spelled.head?.any isLayout) (h : Decodes spelled c) :
    Decodes ('\\' :: 'c' :: (layout ++ spelled)) c := by
  have marked : ¬ (spelled ++ ['\'']).head?.any isLayout := by
    rwa [head?_any_append (by decide : ¬ ['\''].head?.any isLayout)]
  have read (rest : List Char) (stop : ¬ rest.head?.any isLayout) :
      Escape.read ('c' :: layout ++ rest) = (.skipped layout, rest) := Escape.read_skipped all stop
  exact continuation (read _ stop) (read _ marked) rfl h

end Decodes

/-- However many continuations stand in front, both readers find the character that is spelled. -/
theorem SpellsCharacter.decodes (h : SpellsCharacter spelled c) : Decodes spelled c := by
  induction h with
  | unit h => exact .of_isUnit h
  | octal first inside => exact .octal first inside
  | hex inside => exact .hex inside
  | joined layout _ ih => exact ih.joined layout
  | skipped all stop _ ih => exact ih.skipped all stop

namespace Decodes

theorem unique {d : Char} (h : Decodes spelled c) (h' : Decodes spelled d) : c = d := by
  obtain ⟨pieces, read, found⟩ := h.code
  obtain ⟨pieces', read', found'⟩ := h'.code
  rw [read] at read'
  obtain ⟨rfl, -⟩ := Prod.mk.inj read'
  exact Option.some.inj (found.symm.trans found')

/-- Behind a zero and a quote the spelling makes one numeral. -/
theorem reads_number (h : Decodes spelled c) : ∃ n : Numeral,
    Item.Reads ('0' :: '\'' :: spelled) (.lexeme (.number n)) [] ∧
      n.text = decimal c.toNat := by
  obtain ⟨pieces, read, found⟩ := h.code
  have numeral : Numeral.read ('0' :: '\'' :: spelled) =
      (⟨['0'], .code (Suffix.readPieces spelled).1⟩, (Suffix.readPieces spelled).2) := rfl
  rw [read] at numeral
  refine ⟨⟨['0'], .code pieces⟩, ⟨'0', '\'' :: spelled, rfl, ?_⟩, ?_⟩
  · change (Item.lexeme (.number (Numeral.read _).1), (Numeral.read _).2) = _
    rw [numeral]
  · rw [Numeral.text]
    simp only [found, Option.map_some, Option.getD_some]

theorem reads_quoted (h : Decodes spelled c) : ∃ x : Quotation,
    Item.Reads ('\'' :: (spelled ++ ['\''])) (.lexeme (.quoted x)) [] ∧ x.quote = .single ∧
      x.content = [c] := by
  obtain ⟨x, read, mark, content⟩ := h.quoted
  refine ⟨x, ⟨'\'', spelled ++ ['\''], rfl, ?_⟩, mark, content⟩
  change (Item.lexeme (.quoted (Quotation.read .single _).1), (Quotation.read .single _).2) = _
  rw [read]

end Decodes

/-- A spelling stands for one character. Behind a zero and a quote it is the number with the code of
that character, between quotes it is the atom of that character, and either is the whole text. -/
theorem tokenizeWith_characterCode (w : Int) (spelled : List Char) (c : Char)
    (h : SpellsCharacter spelled c) :
    let code := '0' :: '\'' :: spelled
    let atom := '\'' :: (spelled ++ ['\''])
    (∀ d, SpellsCharacter spelled d → d = c) ∧
    tokenizeWith w (String.ofList code) =
      [⟨.number, String.ofList (decimal c.toNat), ⟨0, 0⟩⟩,
        ⟨.endOfFile, "", (Position.start.walk w code).advance w none⟩] ∧
    tokenizeWith w (String.ofList atom) =
      [⟨.atom, String.ofList [c], ⟨0, 0⟩⟩,
        ⟨.endOfFile, "", (Position.start.walk w atom).advance w none⟩] := by
  intro code atom
  obtain ⟨n, number, digits⟩ := h.decodes.reads_number
  obtain ⟨x, quoted, mark, content⟩ := h.decodes.reads_quoted
  refine ⟨fun d hd => hd.decodes.unique h.decodes, ?_, ?_⟩
  · rw [← String.toList_ofList (l := '0' :: '\'' :: spelled)] at number
    rw [tokenizeWith_of_reads_all number rfl, String.toList_ofList, ← digits]
    rfl
  · rw [← String.toList_ofList (l := '\'' :: (spelled ++ ['\'']))] at quoted
    rw [tokenizeWith_of_reads_all quoted rfl, String.toList_ofList, ← content, Lexeme.kind, mark]
    rfl

/-- A continuation that skips layout, one over a newline, and a code with a letter that is no digit
of its base. -/
theorem character_behind_continuations :
    SpellsCharacter "\\c \t\\\n\\x4g1\\".toList 'A' ∧
    tokenizeWith 1 "0'\\c \t\\\n\\x4g1\\" = [⟨.number, "65", ⟨0, 0⟩⟩, ⟨.endOfFile, "", ⟨1, 6⟩⟩] ∧
    tokenizeWith 1 "'\\c \t\\\n\\x4g1\\'" = [⟨.atom, "A", ⟨0, 0⟩⟩, ⟨.endOfFile, "", ⟨1, 7⟩⟩] := by
  have hex : SpellsCharacter ('\\' :: 'x' :: ("4g1".toList ++ ['\\'])) 'A' := by
    have code : charOfCode (valueIn 16 "4g1".toList) = 'A' := by decide
    rw [← code]
    exact .hex (by decide)
  have all : ∀ l ∈ [' ', '\t'], isLayout l := List.all_eq_true.1 (by decide)
  have spelled : SpellsCharacter "\\c \t\\\n\\x4g1\\".toList 'A' :=
    .skipped all (by decide) (.joined (by decide) hex)
  obtain ⟨-, number, atom⟩ := tokenizeWith_characterCode 1 _ _ spelled
  refine ⟨spelled, number.trans ?_, atom.trans ?_⟩
  · decide +kernel
  · decide +kernel

end PrologSource
