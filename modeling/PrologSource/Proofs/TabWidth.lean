import Mathlib.Data.List.DropRight
import Mathlib.Tactic.Ring
import PrologSource.Proofs.Placement

namespace PrologSource

def lineTabs (cs : List Char) : Nat := (cs.rtakeWhile (· ≠ '\n')).count '\t'

theorem lineTabs_newline (cs : List Char) : lineTabs (cs ++ ['\n']) = 0 := by
  rw [lineTabs, List.rtakeWhile_concat_neg _ _ _ (by decide)]
  rfl

theorem lineTabs_concat {c : Char} (h : c ≠ '\n') (cs : List Char) :
    lineTabs (cs ++ [c]) = lineTabs cs + if c = '\t' then 1 else 0 := by
  have line := List.rtakeWhile_concat_pos (· ≠ '\n') cs c (decide_eq_true h)
  rw [lineTabs, line, List.count_append, List.count_singleton, lineTabs]
  simp only [beq_iff_eq]

namespace Position

/-- The place `p` behind `n` tabs on its line, once a tab is `w` columns wide instead of one. -/
def withTabs (w : Int) (n : Nat) (p : Position) : Position := ⟨p.line, p.column + (w - 1) * n⟩

@[simp] theorem withTabs_zero (w : Int) (p : Position) : p.withTabs w 0 = p := by
  simp [withTabs]

/-- One more character on the line moves the places of both widths alike, but for a tab. -/
theorem advance_withTabs (w : Int) (n : Nat) (p : Position) {c : Char} (h : c ≠ '\n') :
    (p.withTabs w n).advance w (some c) =
      (p.advance 1 (some c)).withTabs w (n + if c = '\t' then 1 else 0) := by
  by_cases tab : c = '\t'
  · subst tab
    simp only [advance, withTabs, if_pos, mk.injEq, true_and]
    push_cast
    ring
  · have step (v : Int) (q : Position) : q.advance v (some c) = ⟨q.line, q.column + 1⟩ := by
      unfold advance
      split
      · next same => exact absurd (Option.some.inj same) h
      · next same => exact absurd (Option.some.inj same) tab
      · rfl
    simp only [step, withTabs, if_neg tab, Nat.add_zero, mk.injEq, true_and]
    ring

/-- Reading the same text with two widths of tabs leads to the same line, and to columns that the
tabs since the last newline tell apart. -/
theorem walk_tabs (w : Int) (p : Position) (cs : List Char) :
    p.walk w cs = (p.walk 1 cs).withTabs w (lineTabs cs) := by
  induction cs using List.reverseRecOn with
  | nil => exact (withTabs_zero w p).symm
  | append_singleton cs c ih =>
    rw [walk_append, walk_append, walk_cons, walk_cons, walk_nil, walk_nil, ih]
    by_cases newline : c = '\n'
    · subst newline
      rw [lineTabs_newline, withTabs_zero]
      rfl
    · rw [lineTabs_concat newline, advance_withTabs w _ _ newline]

end Position

namespace Partition
variable {P : Partition} {j : Nat} {x : Part} {p : Position}

theorem endPlace_tabs (w : Int) (p : Position) (P : Partition) :
    P.endPlace w p = (P.endPlace 1 p).withTabs w (lineTabs P.spelling) := by
  rw [endPlace, endPlace, Position.walk_tabs w]
  simp only [Position.advance, Position.withTabs, Position.mk.injEq, true_and]
  ring

/-- A token does not begin with a tab, so that only those before it count. -/
theorem place_tabs (h : P.IsRead) (hx : P.parts[j]? = some x) (w : Int) (p : Position) :
    (p.walk w (P.before j)).advance w x.lexeme.spelling.head? =
      ((p.walk 1 (P.before j)).advance 1 x.lexeme.spelling.head?).withTabs w
        (lineTabs (P.before j)) := by
  obtain ⟨c, tail, spelled, front⟩ := (h.reads hx).head_not_layout
  have other : c ≠ '\n' ∧ c ≠ '\t' := by
    constructor
    · rintro rfl
      exact front (by decide)
    · rintro rfl
      exact front (by decide)
  rw [spelled, List.head?_cons, Position.walk_tabs w, Position.advance_withTabs w _ _ other.1,
    if_neg other.2, Nat.add_zero]

end Partition

/-- With tabs of any width, even of none or a negative one, a text has as many tokens as with tabs
of one column. Token by token they have the same kind, text and line. The columns differ by as much
as the widths for each tab between the last newline before the token and its first character, or
before the end of the text for the token of the end, whether the tab is layout or stands in a
comment or in quoted text. -/
theorem tokenizeWith_tabs (w : Int) (text : String) :
    let P := Partition.ofText text.toList
    (tokenizeWith w text).length = (tokenizeWith 1 text).length ∧
    ∀ j t, (tokenizeWith 1 text)[j]? = some t →
      ∃ before behind, text.toList = before ++ behind ∧
        (t.kind = .endOfFile ∧ behind = [] ∨
          ∃ x, P.parts[j]? = some x ∧ behind = x.lexeme.spelling ++ P.after j) ∧
        ∃ s, (tokenizeWith w text)[j]? = some s ∧ s.kind = t.kind ∧ s.text = t.text ∧
          s.position.line = t.position.line ∧
          s.position.column = t.position.column + (w - 1) * lineTabs before := by
  intro P
  have all : P.spelling = text.toList := Partition.spelling_ofText text.toList
  have isRead : P.IsRead := Partition.isRead_ofText text.toList
  have tokens (v : Int) : tokenizeWith v text = P.tokens v .start := tokenizeWith_eq v text
  refine ⟨(length_tokenizeWith w text).trans (length_tokenizeWith 1 text).symm, ?_⟩
  intro j t ht
  rw [tokens] at ht ⊢
  cases hx : P.parts[j]? with
  | none =>
    obtain ⟨rfl, rfl⟩ := Partition.eq_end_of_token ht hx
    have place := Partition.endPlace_tabs w .start P
    rw [all] at place
    exact ⟨text.toList, [], (List.append_nil _).symm, .inl ⟨rfl, rfl⟩, _,
      Partition.tokens_getElem?_length w .start P, rfl, rfl,
      (congrArg Position.line place).trans rfl, (congrArg Position.column place).trans rfl⟩
  | some x =>
    obtain rfl := Option.some.inj (ht.symm.trans (Partition.tokens_getElem? hx 1 .start))
    have place := Partition.place_tabs isRead hx w .start
    refine ⟨P.before j, x.lexeme.spelling ++ P.after j, ?_, .inr ⟨x, rfl, rfl⟩, _,
      Partition.tokens_getElem? hx w .start, rfl, rfl, (congrArg Position.line place).trans rfl,
      (congrArg Position.column place).trans rfl⟩
    rw [← all, Partition.spelling_eq hx]

/-- Three tabs stand on the line before the variable: one in quoted text, one that continues it and
one behind it. Those of the line before do not count. -/
theorem column_behind_tabs :
    let text := "/*\t*/a\t'\t\n\t\\\t'\tB\t"
    (tokenizeWith 1 text)[2]? = some ⟨.var, "B", ⟨1, 5⟩⟩ ∧
    (tokenizeWith (-3) text)[2]? = some ⟨.var, "B", ⟨1, -7⟩⟩ ∧
    ∃ before behind, text.toList = before ++ behind ∧ lineTabs before = 3 := by
  intro text
  have token : (tokenizeWith 1 text)[2]? = some ⟨.var, "B", ⟨1, 5⟩⟩ := by decide +kernel
  have moved : (tokenizeWith (-3) text)[2]? = some ⟨.var, "B", ⟨1, -7⟩⟩ := by decide +kernel
  obtain ⟨before, behind, split, -, s, found, -, -, -, column⟩ :=
    (tokenizeWith_tabs (-3) text).2 2 _ token
  obtain rfl := Option.some.inj (moved.symm.trans found)
  refine ⟨token, moved, before, behind, split, ?_⟩
  change (-7 : Int) = 5 + (-3 - 1) * lineTabs before at column
  omega

end PrologSource
