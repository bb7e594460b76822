import PrologSource.Proofs.QuotedUnits
import PrologSource.Proofs.Scanner.Quoted

namespace PrologSource

theorem hasCode_charOfCode (n : Nat) : HasCode n (charOfCode n) := by
  unfold HasCode charOfCode
  split
  · rename_i valid
    rw [Char.ofNat, dif_pos valid]
    rfl
  · rfl

namespace Escape

/-- Whatever text follows, a code goes through its first backslash, or to the end of the text. It
stands for the character whose code is the number that its digits spell, however large, and for
U+FFFD where that is the code of no character. The reader, which holds the code in 32 bits, gives
that character from any state, and stands behind the code then. -/
theorem readCode_hasCode {make : List Char → Bool → Escape} {base : Nat} (h : HasBase make base)
    (cs : List Char) : ∃ body closed rest c, IsCut cs body closed rest ∧
      readCode make cs = (make body closed, rest) ∧
      (make body closed).meaning = some c ∧ HasCode (valueIn base body) c ∧
      ∀ (s : Scanner) (p : Position), (s.behind p cs).readCode (.ofNat base) 0 =
        (c, s.behind (p.walk s.tabWidth (body ++ closing closed)) rest) := by
  obtain ⟨body, closed, rest, cut⟩ := exists_isCut cs
  have word : charOfCode (codeIn (.ofNat base) body).toNat = charOfCode (valueIn base body) := by
    cases h with
    | octal => exact charOfCode_codeIn 8 body
    | hex => exact charOfCode_codeIn 16 body
  refine ⟨body, closed, rest, charOfCode (valueIn base body), cut, cut.readCode_eq make,
    meaning_code h body closed, hasCode_charOfCode _, fun s p => ?_⟩
  rw [Scanner.readCode_behind cut, word]

/-- A code with a letter that is no digit, whose number would be that of `A` without the digit that
takes more than 32 bits. -/
theorem code_beyond_word :
    HasBase .hex 16 ∧ IsCut "1g00000041\\z".toList "1g00000041".toList true ['z'] ∧
    readCode .hex "1g00000041\\z".toList = (.hex "1g00000041".toList true, ['z']) ∧
    valueIn 16 "1g00000041".toList = UInt32.size + 'A'.toNat ∧
    meaning (.hex "1g00000041".toList true) = some '\uFFFD' := by
  have number : valueIn 16 "1g00000041".toList = UInt32.size + 'A'.toNat := by decide
  have read : readCode .hex "1g00000041\\z".toList = (.hex "1g00000041".toList true, ['z']) := by
    decide
  obtain ⟨body, closed, rest, c, cut, same, means, code, -⟩ :=
    readCode_hasCode .hex "1g00000041\\z".toList
  rw [read] at same
  cases same
  have replaced : c = '\uFFFD' := by
    rw [number, HasCode, if_neg (by decide)] at code
    exact code
  exact ⟨.hex, cut, read, number, replaced ▸ means⟩

end Escape
end PrologSource
