import Mathlib.Data.List.Forall2
import PrologSource.Proofs.Lookahead.Item
import PrologSource.Proofs.Placement

namespace PrologSource

/-- The text `space` is layout in place of `gap`: there is some where there was something before,
and none where there was nothing. -/
def IsLayoutFor (gap space : List Char) : Prop :=
  (∀ c ∈ space, isLayout c) ∧ (space = [] ↔ gap = [])

instance (gap space : List Char) : Decidable (IsLayoutFor gap space) :=
  decidable_of_iff (space.all isLayout ∧ (space = [] ↔ gap = [])) (by simp [IsLayoutFor])

def Part.IsRespaced (x y : Part) : Prop :=
  y.lexeme = x.lexeme ∧ IsLayoutFor x.gap y.gap

instance (x y : Part) : Decidable (x.IsRespaced y) :=
  inferInstanceAs (Decidable (_ ∧ _))

def Partition.IsRespaced (P Q : Partition) : Prop :=
  List.Forall₂ Part.IsRespaced P.parts Q.parts ∧ IsLayoutFor P.ending Q.ending

instance (P Q : Partition) : Decidable (P.IsRespaced Q) :=
  inferInstanceAs (Decidable (_ ∧ _))

theorem isGap_of_layout {space : List Char} (h : ∀ c ∈ space, isLayout c) (rest : List Char) :
    IsGap rest space := by
  induction space with
  | nil => exact .empty
  | cons c space ih =>
    exact .layout (h c List.mem_cons_self) (ih fun d hd => h d (List.mem_cons_of_mem c hd))

theorem IsGap.beginsGap {rest gap : List Char} {c : Char} (h : IsGap rest (c :: gap)) :
    beginsGap c := by
  cases h with
  | layout layout _ => exact .inl layout
  | lineComment _ _ _ => exact .inr (.inl rfl)
  | blockComment _ _ => exact .inr (.inr rfl)

/-- Two texts that agree, or agree as far as a gap in the first and layout in the second. -/
def AgreeUpToGap (cs cs' : List Char) : Prop :=
  cs = cs' ∨ ∃ u c t t', cs = u ++ c :: t ∧ cs' = u ++ t' ∧ beginsGap c ∧ ∀ d ∈ t'.head?, isLayout d

variable {cs cs' gap space rest : List Char}

theorem AgreeUpToGap.append (h : AgreeUpToGap cs cs') (s : List Char) :
    AgreeUpToGap (s ++ cs) (s ++ cs') := by
  rcases h with rfl | ⟨u, c, t, t', rfl, rfl, begins, layout⟩
  · exact .inl rfl
  · exact .inr ⟨s ++ u, c, t, t', (List.append_assoc ..).symm, (List.append_assoc ..).symm,
      begins, layout⟩

/-- Where there is a gap, it does not matter what follows it. -/
theorem IsLayoutFor.agree (h : IsLayoutFor gap space) (isGap : IsGap rest gap)
    (more : AgreeUpToGap cs cs') : AgreeUpToGap (gap ++ cs) (space ++ cs') := by
  obtain ⟨layout, empty⟩ := h
  cases gap with
  | nil =>
    rw [empty.2 rfl]
    exact more
  | cons c gap =>
    cases space with
    | nil => cases empty.1 rfl
    | cons d space =>
      refine .inr ⟨[], c, gap ++ cs, d :: space ++ cs', rfl, rfl, isGap.beginsGap, ?_⟩
      intro e he
      cases he
      exact layout d List.mem_cons_self

/-- A lexeme is read alike before texts that agree up to a gap. -/
theorem Item.Reads.agree {l : Lexeme} {s : List Char} (h : Reads (s ++ cs) (.lexeme l) cs)
    (agree : AgreeUpToGap cs cs') : Reads (s ++ cs') (.lexeme l) cs' := by
  rcases agree with rfl | ⟨u, c, t, t', rfl, rfl, begins, layout⟩
  · exact h
  · rw [← List.append_assoc] at h ⊢
    refine h.relocate begins layout fun gap => ?_
    cases gap

namespace Partition
variable {parts parts' : List Part} {ending ending' : List Char}

theorem agree_of_respaced (h : List.Forall₂ Part.IsRespaced parts parts')
    (last : IsLayoutFor ending ending') (read : AreRead ending parts) :
    AgreeUpToGap (parts.flatMap Part.spelling ++ ending)
      (parts'.flatMap Part.spelling ++ ending') := by
  induction h with
  | nil =>
    have agree := last.agree read (.inl rfl : AgreeUpToGap [] [])
    rwa [List.append_nil, List.append_nil] at agree
  | @cons x y parts parts' same _ ih =>
    obtain ⟨gap, -, others⟩ := read
    have agree := same.2.agree gap ((ih others).append x.lexeme.spelling)
    rw [List.flatMap_cons, List.flatMap_cons, Part.spelling, Part.spelling, same.1]
    simpa only [List.append_assoc] using agree

theorem areRead_respaced (h : List.Forall₂ Part.IsRespaced parts parts')
    (last : IsLayoutFor ending ending') (read : AreRead ending parts) :
    AreRead ending' parts' := by
  induction h with
  | nil => exact isGap_of_layout last.1 []
  | cons same others ih =>
    obtain ⟨-, lexeme, left⟩ := read
    refine ⟨isGap_of_layout same.2.1 _, ?_, ih left⟩
    rw [same.1]
    exact lexeme.agree (agree_of_respaced others last left)

/-- With other layout for its gaps a partition is still as reading makes it. -/
theorem isRead_respaced {P Q : Partition} (h : P.IsRespaced Q) (read : P.IsRead) : Q.IsRead :=
  areRead_respaced h.1 h.2 read

end Partition

/-- The token of a part does not depend on what makes up its gap. -/
theorem Part.IsRespaced.kind_text {x y : Part} (h : x.IsRespaced y) :
    (y.lexeme.kind (y.gap ≠ []), String.ofList y.lexeme.text) =
      (x.lexeme.kind (x.gap ≠ []), String.ofList x.lexeme.text) := by
  have empty : decide (y.gap ≠ []) = decide (x.gap ≠ []) := decide_eq_decide.2 (not_congr h.2.2)
  rw [h.1, empty]

theorem Partition.map_tokens_respaced {P Q : Partition} (h : P.IsRespaced Q) (w : Int)
    (p q : Position) : (Q.tokens w q).map (fun t => (t.kind, t.text)) =
      (P.tokens w p).map fun t => (t.kind, t.text) := by
  rw [map_tokens, map_tokens]
  refine congrArg (· ++ _) ?_
  obtain ⟨parts, -⟩ := h
  generalize P.parts = xs at parts
  generalize Q.parts = ys at parts
  induction parts with
  | nil => rfl
  | cons same _ ih => rw [List.map_cons, List.map_cons, same.kind_text, ih]

/-- With any layout in place of each gap between the lexemes of a text, and of the gaps at its ends,
the text has tokens of the same kinds and texts in the same order. A gap that is empty stays so. -/
theorem tokenizeWith_respaced (w : Int) (text : String) (Q : Partition)
    (h : (Partition.ofText text.toList).IsRespaced Q) :
    (tokenizeWith w (String.ofList Q.spelling)).map (fun t => (t.kind, t.text)) =
      (tokenizeWith w text).map fun t => (t.kind, t.text) := by
  have read := Partition.isRead_respaced h (Partition.isRead_ofText text.toList)
  rw [tokenizeWith_eq, tokenizeWith_eq, String.toList_ofList, Partition.ofText_spelling read,
    Partition.map_tokens_respaced h]

/-- Comments right behind a clause, a name and a parenthesis. The space of the character code is no
gap. -/
theorem tokens_without_comments :
    ∃ Q, (Partition.ofText "a.%b\n(1e/**/+ 0' )%".toList).IsRespaced Q ∧
      String.ofList Q.spelling = "a.\n\t(1e +\n0' ) " ∧
      (tokenizeWith 1 "a.\n\t(1e +\n0' ) ").map (fun t => (t.kind, t.text)) =
        (tokenizeWith 1 "a.%b\n(1e/**/+ 0' )%").map fun t => (t.kind, t.text) := by
  let Q : Partition :=
    ⟨[⟨[], .name 'a' []⟩, ⟨[], .fullStop⟩, ⟨['\n', '\t'], .openParen⟩,
      ⟨[], .number ⟨['1'], .plain⟩⟩, ⟨[], .name 'e' []⟩, ⟨[' '], .graphic '+' []⟩,
      ⟨['\n'], .number ⟨['0'], .code [.raw ' ']⟩⟩, ⟨[], .solo ')'⟩], [' ']⟩
  have respaced : (Partition.ofText "a.%b\n(1e/**/+ 0' )%".toList).IsRespaced Q := by
    decide +kernel
  have spelled : String.ofList Q.spelling = "a.\n\t(1e +\n0' ) " := by decide +kernel
  have law := tokenizeWith_respaced 1 "a.%b\n(1e/**/+ 0' )%" Q respaced
  rw [spelled] at law
  exact ⟨Q, respaced, spelled, law⟩

end PrologSource
