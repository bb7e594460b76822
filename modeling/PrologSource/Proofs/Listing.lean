import Mathlib.Data.List.Basic
import Mathlib.Tactic.SplitIfs
import PrologSource.Command
import PrologSource.Proofs.Scanner.Run
import PrologSource.Proofs.Lines
import PrologSource.Proofs.Lookahead.Break
import PrologSource.Proofs.NumberForm

namespace PrologSource
open Function (Injective LeftInverse)

/-- A separator cuts a text in one way only, if it does not stand before the cut. -/
theorem append_cons_inj {c : Char} {u v u' v' : List Char} (hu : c ∉ u) (hu' : c ∉ u')
    (h : u ++ c :: v = u' ++ c :: v') : u = u' ∧ v = v' := by
  obtain ⟨front, behind⟩ := takeWhile_ne_run (t := c :: v) hu (by simp)
  obtain ⟨front', behind'⟩ := takeWhile_ne_run (t := c :: v') hu' (by simp)
  rw [h] at front behind
  exact ⟨front.symm.trans front', (List.cons.inj (behind.symm.trans behind')).2⟩

/-! Numbers. -/

theorem decimal_injective : Injective decimal :=
  LeftInverse.injective valueIn_decimal

theorem not_mem_decimal {c : Char} (h : ¬ isDigit c) (n : Nat) : c ∉ decimal n :=
  fun digit => h ((isDecimal_decimal n).2 c digit)

theorem not_mem_signedDecimal {c : Char} (h : ¬ isDigit c) (minus : c ≠ '-') (n : Int) :
    c ∉ signedDecimal n := by
  cases n with
  | ofNat n => exact not_mem_decimal h n
  | negSucc n => exact List.not_mem_cons_of_ne_of_not_mem minus (not_mem_decimal h (n + 1))

theorem signedDecimal_injective : Injective signedDecimal := by
  have apart (m n : Nat) : decimal m ≠ '-' :: decimal n := by
    intro same
    refine not_mem_decimal (c := '-') (by decide) m ?_
    rw [same]
    exact List.mem_cons_self
  intro m n h
  cases m with
  | ofNat m =>
    cases n with
    | ofNat n => exact congrArg Int.ofNat (decimal_injective h)
    | negSucc n => exact absurd h (apart m (n + 1))
  | negSucc m =>
    cases n with
    | ofNat n => exact absurd h.symm (apart n (m + 1))
    | negSucc n => exact congrArg Int.negSucc (Nat.succ.inj (decimal_injective (List.cons.inj h).2))

theorem charOfCode_toNat (c : Char) : charOfCode c.toNat = c := by
  have valid : c.toNat.isValidChar := c.valid
  rw [charOfCode, if_pos valid, Char.ofNat_toNat]

/-! Characters between quotes. -/

def listedEscape : Char → Char
  | '0' => '\x00'
  | 't' => '\t'
  | 'r' => '\r'
  | 'n' => '\n'
  | c => c

def readListedEscape : List Char → Option (Char × List Char)
  | [] => none
  | 'u' :: cs =>
    some (charOfCode (valueIn 16 (cs.takeWhile (· ≠ '\x7d'))), (cs.dropWhile (· ≠ '\x7d')).tail)
  | c :: cs => some (listedEscape c, cs)

/-- Reads a character as it stands in a listing, and returns the text behind it. -/
def readListed : List Char → Option (Char × List Char)
  | [] => none
  | c :: cs => if c = '\\' then readListedEscape cs else some (c, cs)

theorem not_mem_hexadecimal {c : Char} (h : ¬ isDigitIn 16 c) (n : Nat) :
    c ∉ Nat.toDigits 16 n :=
  fun digit => h (isDigitIn_of_mem_toDigits (by decide) (by decide) digit)

/-- A character is read back, whatever follows. -/
theorem readListed_quotedChar (c : Char) (cs : List Char) :
    readListed (quotedChar c ++ cs) = some (c, cs) := by
  unfold quotedChar
  split_ifs with mark nul tab ret newline hidden
  · rcases mark with rfl | rfl <;> rfl
  · subst nul
    rfl
  · subst tab
    rfl
  · subst ret
    rfl
  · subst newline
    rfl
  · have brace := not_mem_hexadecimal (c := '\x7d') (by decide) c.toNat
    have opening : '\x7d' ∉ '\x7b' :: Nat.toDigits 16 c.toNat :=
      List.not_mem_cons_of_ne_of_not_mem (by decide) brace
    obtain ⟨code, behind⟩ := takeWhile_ne_run (t := '\x7d' :: cs) opening (by simp)
    have spelled : '\\' :: 'u' :: '\x7b' :: (Nat.toDigits 16 c.toNat ++ ['\x7d']) ++ cs =
        '\\' :: 'u' :: (('\x7b' :: Nat.toDigits 16 c.toNat) ++ '\x7d' :: cs) := by simp
    -- the opening brace is no digit, so that it does not count
    have value : valueIn 16 ('\x7b' :: Nat.toDigits 16 c.toNat) = c.toNat :=
      valueIn_toDigits (by decide) (by decide) c.toNat
    rw [spelled, readListed, if_pos rfl, readListedEscape, code, behind, value, charOfCode_toNat]
    rfl
  · exact if_neg fun backslash => mark (.inr backslash)

theorem quotedChar_ne_nil (c : Char) : quotedChar c ≠ [] := by
  intro empty
  have read := readListed_quotedChar c []
  rw [empty] at read
  cases read

/-- No text between quotes has the listing of another: character by character, what is read back
decides. -/
theorem quoted_injective : Injective quoted := by
  intro cs ds h
  have inner : cs.flatMap quotedChar = ds.flatMap quotedChar :=
    List.append_cancel_right (List.cons.inj h).2
  clear h
  induction cs generalizing ds with
  | nil =>
    cases ds with
    | nil => rfl
    | cons d ds =>
      rw [List.flatMap_nil, List.flatMap_cons] at inner
      exact absurd (List.append_eq_nil_iff.1 inner.symm).1 (quotedChar_ne_nil d)
  | cons c cs ih =>
    cases ds with
    | nil =>
      rw [List.flatMap_nil, List.flatMap_cons] at inner
      exact absurd (List.append_eq_nil_iff.1 inner).1 (quotedChar_ne_nil c)
    | cons d ds =>
      have read := congrArg readListed inner
      rw [List.flatMap_cons, List.flatMap_cons, readListed_quotedChar,
        readListed_quotedChar] at read
      obtain ⟨rfl, rest⟩ := Prod.mk.inj (Option.some.inj read)
      rw [ih rest]

theorem newline_not_mem_quotedChar (c : Char) : '\n' ∉ quotedChar c := by
  unfold quotedChar
  split_ifs with mark nul tab ret newline hidden
  · rcases mark with rfl | rfl <;> decide
  · decide
  · decide
  · decide
  · decide
  · have digits := not_mem_hexadecimal (c := '\n') (by decide) c.toNat
    simp [digits]
  · simpa using Ne.symm newline

theorem newline_not_mem_quoted (cs : List Char) : '\n' ∉ quoted cs := by
  have inner : '\n' ∉ cs.flatMap quotedChar := by
    intro mem
    obtain ⟨c, -, hc⟩ := List.mem_flatMap.1 mem
    exact newline_not_mem_quotedChar c hc
  simp [quoted, inner]

/-! Tokens. -/

namespace TokenKind

theorem ofName?_name (k : TokenKind) : ofName? k.name = some k := by
  cases k <;> decide

theorem name_injective : Injective name := by
  intro k l h
  have found := ofName?_name k
  rw [h, ofName?_name l] at found
  exact (Option.some.inj found).symm

theorem not_mem_name {c : Char} (h : c = '\t' ∨ c = '\n') (k : TokenKind) : c ∉ k.name.toList := by
  rcases h with rfl | rfl <;> cases k <;> decide

end TokenKind

namespace Token

theorem toList_listing (t : Token) : t.listing.toList =
    decimal t.position.line ++ ':' :: (signedDecimal t.position.column ++
      '\t' :: (t.kind.name.toList ++ '\t' :: quoted t.text.toList)) := by
  simp [listing]

/-- The fields of a token can be told from its listing, one after another. -/
theorem listing_injective : Injective listing := by
  intro s t h
  have chars := congrArg String.toList h
  rw [toList_listing, toList_listing] at chars
  obtain ⟨line, behind⟩ := append_cons_inj (not_mem_decimal (by decide) _)
    (not_mem_decimal (by decide) _) chars
  obtain ⟨column, rest⟩ := append_cons_inj (not_mem_signedDecimal (by decide) (by decide) _)
    (not_mem_signedDecimal (by decide) (by decide) _) behind
  obtain ⟨kind, text⟩ := append_cons_inj (TokenKind.not_mem_name (.inl rfl) _)
    (TokenKind.not_mem_name (.inl rfl) _) rest
  have same_line := decimal_injective line
  have same_column := signedDecimal_injective column
  have same_kind := TokenKind.name_injective (String.toList_injective kind)
  have same_text := String.toList_injective (quoted_injective text)
  obtain ⟨kind, text, line, column⟩ := s
  simp_all

theorem newline_not_mem_listing (t : Token) : '\n' ∉ t.listing.toList := by
  have line := not_mem_decimal (c := '\n') (by decide) t.position.line
  have column := not_mem_signedDecimal (c := '\n') (by decide) (by decide) t.position.column
  have kind := TokenKind.not_mem_name (.inr rfl) t.kind
  have text := newline_not_mem_quoted t.text.toList
  simp [toList_listing, line, column, kind, text]

theorem getLast?_listing (t : Token) : t.listing.toList.getLast? = some '"' := by
  have split : t.listing.toList = (decimal t.position.line ++ ':' ::
      (signedDecimal t.position.column ++ '\t' :: (t.kind.name.toList ++
        '\t' :: '"' :: t.text.toList.flatMap quotedChar))) ++ ['"'] := by
    simp [toList_listing, quoted]
  rw [split, List.getLast?_concat]

end Token

namespace Command

theorem toList_unlines (texts : List String) :
    (unlines texts).toList = texts.flatMap fun s => s.toList ++ ['\n'] := by
  rw [unlines, String.toList_join, List.flatMap_map]
  exact congrArg (texts.flatMap ·) (funext fun s => String.toList_append)

/-- Listed tokens stand on a line each. -/
theorem textLines_listing (tokens : List Token) :
    textLines (unlines (tokens.map Token.listing)).toList =
      tokens.map fun t => t.listing.toList := by
  rw [toList_unlines, List.flatMap_map]
  refine textLines_flatMap ?_
  intro t _
  refine ⟨t.newline_not_mem_listing, ?_⟩
  rw [t.getLast?_listing]
  decide

theorem unlines_listing_injective :
    Injective fun tokens : List Token => unlines (tokens.map Token.listing) := by
  intro ts us h
  have lines := congrArg (fun s => textLines s.toList) h
  simp only [textLines_listing] at lines
  refine List.map_injective_iff.2 ?_ lines
  intro s t same
  exact Token.listing_injective (String.toList_injective same)

theorem listTokens_eq {setting : Option String} {width : Option Int}
    (h : setting.mapM (fun s => readInteger s.toList) = .ok width) (input : List UInt8) :
    listTokens setting input = .success (unlines
      ((tokenizeWith (width.getD 1) ((utf8? input).getD (latin1 input))).map Token.listing)) := by
  simp only [listTokens, h, checkedTokens_eq]

/-- No two tokens have the same listing, and a listing holds no newline. So whatever the text and
the setting of the tab width, the command that lists tokens prints one line for each, and no other
tokens are printed in the same way. -/
theorem listTokens_lossless :
    Injective Token.listing ∧ (∀ t : Token, '\n' ∉ t.listing.toList) ∧
    ∀ (setting : Option String) (width : Option Int) (input : List UInt8),
      setting.mapM (fun s => readInteger s.toList) = .ok width →
      let tokens := tokenizeWith (width.getD 1) ((utf8? input).getD (latin1 input))
      let outcome := listTokens setting input
      outcome.exitCode = 0 ∧
      textLines outcome.output.toList = tokens.map (fun t => t.listing.toList) ∧
      ∀ others : List Token, unlines (others.map Token.listing) = outcome.output →
        others = tokens := by
  refine ⟨Token.listing_injective, Token.newline_not_mem_listing, ?_⟩
  intro setting width input h tokens outcome
  have printed : outcome = .success (unlines (tokens.map Token.listing)) := listTokens_eq h input
  rw [printed]
  refine ⟨rfl, textLines_listing tokens, ?_⟩
  intro others same
  exact unlines_listing_injective same

/-- A newline within a token is no end of a line. -/
theorem listTokens_quoted_newline :
    let input : List UInt8 := [39, 97, 92, 110, 39, 9, 88]
    (some "4").mapM (fun s => readInteger s.toList) = .ok (some 4) ∧
    (listTokens (some "4") input).exitCode = 0 ∧
    textLines (listTokens (some "4") input).output.toList =
      ["0:0\tatom\t\"a\\n\"", "0:9\tvariable\t\"X\"", "0:10\tend_of_file\t\"\""].map
        String.toList := by
  intro input
  have width : (some "4").mapM (fun s => readInteger s.toList) = .ok (some 4) := by rfl
  obtain ⟨exit, lines, -⟩ := listTokens_lossless.2.2 (some "4") (some 4) input width
  refine ⟨width, exit, lines.trans ?_⟩
  decide +kernel

end Command
end PrologSource
