import Mathlib.Data.List.Infix
import PrologSource.Proofs.Placement

namespace PrologSource
variable {body cs : List Char}

/-- The word stands at the offset `k` of the text, and nowhere before. -/
def IsFirstAt (word cs : List Char) (k : Nat) : Prop :=
  word <+: cs.drop k ∧ ∀ j < k, ¬ word <+: cs.drop j

instance (word cs : List Char) (k : Nat) : Decidable (IsFirstAt word cs k) :=
  inferInstanceAs (Decidable (_ ∧ _))

theorem IsFirstAt.eq {word : List Char} {j k : Nat} (hj : IsFirstAt word cs j)
    (hk : IsFirstAt word cs k) : j = k := by
  apply Nat.le_antisymm
  · exact Nat.le_of_not_lt fun before => hj.2 k before hk.1
  · exact Nat.le_of_not_lt fun before => hk.2 j before hj.1

/-- A body that holds no closing, and makes none with the star behind it, stands up to the first
one. -/
theorem isFirstAt_close (inside : ¬ ['*', '/'] <:+: body ++ ['*']) (rest : List Char) :
    IsFirstAt ['*', '/'] (body ++ '*' :: '/' :: rest) body.length := by
  refine ⟨?_, ?_⟩
  · rw [List.drop_left]
    exact ⟨rest, rfl⟩
  · intro j before early
    have whole : body ++ '*' :: '/' :: rest = (body ++ ['*']) ++ '/' :: rest := by simp
    -- The closing at `j` is too short to reach beyond the star.
    have starred : (body ++ ['*']).drop j <+: (body ++ '*' :: '/' :: rest).drop j := by
      have reach : j ≤ (body ++ ['*']).length := by
        rw [List.length_append]
        exact before.le.trans (Nat.le_add_right _ _)
      rw [whole, List.drop_append_of_le_length reach]
      exact List.prefix_append _ _
    have short : ['*', '/'].length ≤ ((body ++ ['*']).drop j).length := by
      rw [List.length_drop, List.length_append]
      change 2 ≤ body.length + 1 - j
      omega
    have close := List.prefix_of_prefix_length_le early starred short
    exact inside (close.isInfix.trans (List.drop_suffix j _).isInfix)

namespace Item

theorem reads_runaway (inside : ¬ ['*', '/'] <:+: cs) :
    Reads ('/' :: '*' :: cs) (.lexeme (.runaway cs)) [] := by
  refine ⟨'/', '*' :: cs, rfl, ?_⟩
  change readSymbol '/' ('*' :: cs) = _
  rw [readSymbol, if_pos ⟨rfl, rfl⟩, List.tail_cons]
  cases found : splitAtClose cs with
  | none => rfl
  | some parts =>
    have split := spelling_of_splitAtClose found
    exact absurd ⟨parts.1, parts.2, by rw [← split]; simp⟩ inside

theorem map_tokens (w w' : Int) (p p' : Position) (afterGap : Bool) (items : List Item) :
    (tokens w p afterGap items).map (fun t => (t.kind, t.text)) =
      (tokens w' p' afterGap items).map fun t => (t.kind, t.text) := by
  induction items generalizing p p' afterGap with
  | nil => rfl
  | cons i items ih =>
    rw [tokens, tokens, List.map_append, List.map_append, ih _ (i.after w' p')]
    cases i <;> rfl

end Item

/-- Behind the opening of a block comment, all up to the first closing counts as one space: what
follows has the same tokens as it has behind a space. Where there is no closing, the comment is the
one token of the text. -/
theorem tokenizeWith_blockComment (w w' : Int) (v : String) :
    (['*', '/'] <:+: v.toList → ∃ k, IsFirstAt ['*', '/'] v.toList k ∧
      (tokenizeWith w ("/*" ++ v)).map (fun t => (t.kind, t.text)) =
        (tokenizeWith w' (" " ++ String.ofList (v.toList.drop (k + 2)))).map
          fun t => (t.kind, t.text)) ∧
    (¬ ['*', '/'] <:+: v.toList → ∃ p, tokenizeWith w ("/*" ++ v) =
      [⟨.solo, Token.runawayText, ⟨0, 0⟩⟩, ⟨.endOfFile, "", p⟩]) := by
  have opened : ("/*" ++ v).toList = '/' :: '*' :: v.toList := String.toList_append
  constructor
  · intro closed
    cases found : Item.splitAtClose v.toList with
    | none => exact absurd closed (Item.close_not_infix_of_splitAtClose_eq_none found)
    | some parts =>
      obtain ⟨body, rest⟩ := parts
      have split := Item.spelling_of_splitAtClose found
      have inside := Item.close_not_infix_of_splitAtClose found
      have behind : v.toList.drop (body.length + 2) = rest := by
        rw [← split, ← List.drop_drop, List.drop_left]
        rfl
      have spaced : (" " ++ String.ofList rest).toList = ' ' :: rest :=
        String.toList_append.trans (congrArg (' ' :: ·) String.toList_ofList)
      refine ⟨body.length, split ▸ isFirstAt_close inside rest, ?_⟩
      rw [behind, tokenizeWith_eq_items, tokenizeWith_eq_items, opened, spaced, ← split,
        (Item.reads_blockComment inside rest).ofText_eq,
        (Item.reads_layout (by decide) rest).ofText_eq]
      exact Item.map_tokens w w' _ _ true (Item.ofText rest)
  · intro unclosed
    have read := Item.reads_runaway unclosed
    rw [← opened] at read
    refine ⟨((Item.lexeme (.runaway v.toList)).after w .start).advance w none, ?_⟩
    rw [tokenizeWith_eq_items, read.ofText_eq, Item.ofText]
    rfl

/-- A comment with stars at both ends, an opening and a quote mark in it, and one whose only star is
that of its opening. -/
theorem tokens_behind_blockComment :
    ['*', '/'] <:+: "* '%/**/(b".toList ∧ ¬ ['*', '/'] <:+: "/".toList ∧
    IsFirstAt ['*', '/'] "* '%/**/(b".toList 6 ∧
    (tokenizeWith 1 ("/*" ++ "* '%/**/(b")).map (fun t => (t.kind, t.text)) =
      [(.solo, "("), (.atom, "b"), (.endOfFile, "")] ∧
    ∃ p, tokenizeWith 1 ("/*" ++ "/") =
      [⟨.solo, "/* ...", ⟨0, 0⟩⟩, ⟨.endOfFile, "", p⟩] := by
  have closed : ['*', '/'] <:+: "* '%/**/(b".toList := by decide
  have unclosed : ¬ ['*', '/'] <:+: "/".toList := by decide
  have close : IsFirstAt ['*', '/'] "* '%/**/(b".toList 6 := by decide
  obtain ⟨k, first, same⟩ := (tokenizeWith_blockComment 1 1 "* '%/**/(b").1 closed
  obtain rfl := first.eq close
  have behind : (tokenizeWith 1 (" " ++ String.ofList ("* '%/**/(b".toList.drop (6 + 2)))).map
      (fun t => (t.kind, t.text)) = [(.solo, "("), (.atom, "b"), (.endOfFile, "")] := by
    decide +kernel
  exact ⟨closed, unclosed, close, same.trans behind,
    (tokenizeWith_blockComment 1 1 "/").2 unclosed⟩

end PrologSource
