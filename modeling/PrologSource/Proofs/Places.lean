import Mathlib.Order.Defs.PartialOrder
import Mathlib.Tactic.SplitIfs
import PrologSource.Mark.Resolve
import PrologSource.Proofs.Lossless

namespace PrologSource

namespace Position
variable {w : Int} {p : Position}

instance : PartialOrder Position where
  le_refl p := by rw [le_iff]; omega
  le_trans p q r := by simp only [le_iff]; omega
  lt_iff_le_not_ge p q := by simp only [le_iff, lt_iff]; omega
  le_antisymm p q := by
    obtain ⟨line, column⟩ := p
    obtain ⟨line', column'⟩ := q
    simp only [le_iff, mk.injEq]
    omega

theorem line_le {q : Position} (h : p ≤ q) : p.line ≤ q.line := by
  rw [le_iff] at h
  omega

theorem le_advance (hw : 0 ≤ w) (p : Position) (c : Option Char) : p ≤ p.advance w c := by
  rw [le_iff]
  unfold advance
  split
  · exact .inl (Nat.lt_succ_self _)
  · exact .inr ⟨rfl, Int.le_add_of_nonneg_right hw⟩
  · exact .inr ⟨rfl, Int.le_add_of_nonneg_right (by decide)⟩

theorem le_walk (hw : 0 ≤ w) (p : Position) (cs : List Char) : p ≤ p.walk w cs := by
  induction cs generalizing p with
  | nil => exact le_refl p
  | cons c cs ih => exact (le_advance hw p (some c)).trans (ih _)

/-- Only layout can leave the place as it was. -/
theorem lt_advance {c : Char} (hc : ¬ isLayout c) (w : Int) (p : Position) :
    p < p.advance w (some c) := by
  rw [advance_of_not_layout hc]
  exact .inr ⟨rfl, Int.lt_add_one_of_le (Int.le_refl _)⟩

theorem advance_none (w : Int) (p : Position) : p.advance w none = ⟨p.line, p.column + 1⟩ := rfl

end Position

namespace Part
variable {w : Int} {x : Part} {cs rest ending : List Char} {parts : List Part}

/-- A token stands behind the place where its part begins, and not behind its end. -/
theorem place_token (hw : 0 ≤ w) (read : Item.Reads cs (.lexeme x.lexeme) rest) (p : Position) :
    p < (x.token w p).position ∧ (x.token w p).position ≤ p.walk w x.spelling := by
  obtain ⟨c, tail, spelled, front⟩ := read.head_not_layout
  have place : (x.token w p).position = (p.walk w x.gap).advance w (some c) := by
    rw [token, spelled, List.head?_cons]
  have behind : p.walk w x.spelling = ((p.walk w x.gap).advance w (some c)).walk w tail := by
    rw [spelling, spelled, Position.walk_append, Position.walk_cons]
  rw [place, behind]
  exact ⟨(Position.le_walk hw p x.gap).trans_lt (Position.lt_advance front w _),
    Position.le_walk hw _ tail⟩

/-- The tokens of parts stand between the place where the parts begin and the place where they
end. -/
theorem place_of_mem_tokens (hw : 0 ≤ w) (read : Partition.AreRead ending parts) {p : Position}
    {t : Token} (ht : t ∈ tokens w p parts) :
    p < t.position ∧ t.position ≤ p.walk w (parts.flatMap spelling) := by
  induction parts generalizing p with
  | nil => cases ht
  | cons x parts ih =>
    obtain ⟨-, first, others⟩ := read
    obtain ⟨above, below⟩ := place_token hw first p
    rw [List.flatMap_cons, Position.walk_append]
    rcases List.mem_cons.1 ht with rfl | later
    · exact ⟨above, below.trans (Position.le_walk hw _ _)⟩
    · obtain ⟨after, last⟩ := ih others later
      exact ⟨(above.trans_le below).trans after, last⟩

theorem pairwise_tokens (hw : 0 ≤ w) (read : Partition.AreRead ending parts) (p : Position) :
    (tokens w p parts).Pairwise fun s t => s.position < t.position := by
  induction parts generalizing p with
  | nil => exact .nil
  | cons x parts ih =>
    obtain ⟨-, first, others⟩ := read
    refine .cons ?_ (ih others _)
    intro t ht
    exact (place_token hw first p).2.trans_lt (place_of_mem_tokens hw others ht).1

end Part

namespace Partition
variable {w : Int} {P : Partition} {p : Position}

theorem endPlace_eq (w : Int) (p : Position) (P : Partition) :
    P.endPlace w p = ⟨((p.walk w P.spelling).advance w none).line,
      ((p.walk w P.spelling).advance w none).column + P.overrun⟩ := by
  rw [endPlace, Position.advance_none, Position.advance_none, Int.add_right_comm]

/-- A token of a part stands within the text. -/
theorem place_of_mem_tokens (hw : 0 ≤ w) (h : P.IsRead) {t : Token}
    (ht : t ∈ Part.tokens w p P.parts) : t.position ≤ p.walk w P.spelling := by
  have ending := Position.le_walk hw (p.walk w (P.parts.flatMap Part.spelling)) P.ending
  rw [← Position.walk_append] at ending
  exact (Part.place_of_mem_tokens hw h ht).2.trans ending

theorem walk_lt_endPlace (w : Int) (p : Position) (P : Partition) :
    p.walk w P.spelling < P.endPlace w p := by
  rw [endPlace_eq, Position.advance_none, Position.lt_iff]
  refine .inr ⟨rfl, ?_⟩
  change (p.walk w P.spelling).column < (p.walk w P.spelling).column + 1 + (P.overrun : Int)
  omega

/-- Each token stands behind the one before it, and the end behind them all. -/
theorem pairwise_tokens (hw : 0 ≤ w) (h : P.IsRead) (p : Position) :
    (P.tokens w p).Pairwise fun s t => s.position < t.position := by
  rw [tokens, List.pairwise_append]
  refine ⟨Part.pairwise_tokens hw h p, List.pairwise_singleton _ _, ?_⟩
  intro s hs t ht
  obtain rfl := List.mem_singleton.1 ht
  exact (place_of_mem_tokens hw h hs).trans_lt (walk_lt_endPlace w p P)

theorem column_endPlace (hw : 0 ≤ w) (hp : -1 ≤ p.column) (P : Partition) :
    0 ≤ (P.endPlace w p).column := by
  have last := Position.column_walk hw hp P.spelling
  rw [endPlace_eq, Position.advance_none]
  change 0 ≤ (p.walk w P.spelling).column + 1 + (P.overrun : Int)
  omega

theorem column_of_mem_tokens (hw : 0 ≤ w) (h : P.IsRead) (hp : -1 ≤ p.column) {t : Token}
    (ht : t ∈ P.tokens w p) : 0 ≤ t.position.column := by
  obtain ⟨j, hj⟩ := List.mem_iff_getElem?.1 ht
  cases hx : P.parts[j]? with
  | none =>
    obtain ⟨-, rfl⟩ := eq_end_of_token hj hx
    exact column_endPlace hw hp P
  | some x =>
    obtain rfl := Option.some.inj (hj.symm.trans (tokens_getElem? hx w p))
    obtain ⟨c, tail, spelled, front⟩ := (h.reads hx).head_not_layout
    have before := Position.column_walk hw hp (P.before j)
    rw [spelled, List.head?_cons, Position.advance_of_not_layout front]
    change 0 ≤ (p.walk w (P.before j)).column + 1
    omega

theorem overrun_le (P : Partition) : P.overrun ≤ 2 := by
  unfold overrun
  cases P.parts.getLast? with
  | none => exact Nat.zero_le 2
  | some x =>
    rw [Option.map_some, Option.getD_some]
    unfold Item.overrun
    repeat' split
    all_goals decide

/-- Reading runs past the end only in search of the end of a comment, which a token shows. -/
theorem exists_runaway (h : P.overrun ≠ 0) (w : Int) (p : Position) :
    ∃ t ∈ P.tokens w p, t.isRunaway := by
  unfold overrun at h
  cases last : P.parts.getLast? with
  | none => simp [last] at h
  | some x =>
    rw [last, Option.map_some, Option.getD_some] at h
    rw [List.getLast?_eq_getElem?] at last
    refine ⟨_, List.mem_of_getElem? (tokens_getElem? last w p), ?_⟩
    cases l : x.lexeme with
    | runaway body => rfl
    | _ =>
      rw [l] at h
      exact absurd rfl h

end Partition

/-- Every token but that of the end is that of a lexeme, and stands where reading the text up to and
including the first character of it leads. The token of the end stands one column behind the place
where the whole text leads, or up to two more, and more only in a text with an unclosed comment. -/
theorem tokenizeWith_position (w : Int) (text : String) :
    let P := Partition.ofText text.toList
    let tokens := tokenizeWith w text
    let behind := (Position.start.walk w text.toList).advance w none
    (∀ j t, tokens[j]? = some t → t.kind ≠ .endOfFile →
      ∃ x c tail, P.parts[j]? = some x ∧ t.kind = x.lexeme.kind (x.gap ≠ []) ∧
        t.text = String.ofList x.lexeme.text ∧ x.lexeme.spelling = c :: tail ∧
        text.toList = P.before j ++ c :: (tail ++ P.after j) ∧
        t.position = Position.start.walk w (P.before j ++ [c])) ∧
    ∃ extra ≤ 2,
      tokens.getLast? = some ⟨.endOfFile, "", ⟨behind.line, behind.column + (extra : Nat)⟩⟩ ∧
      ((∀ t ∈ tokens, ¬ t.isRunaway) → extra = 0) := by
  intro P tokens behind
  have all : P.spelling = text.toList := Partition.spelling_ofText text.toList
  have same : tokens = P.tokens w .start := tokenizeWith_eq w text
  constructor
  · intro j t ht inside
    rw [same] at ht
    obtain ⟨x, hx, rfl⟩ := Partition.exists_part_of_token ht inside
    have read := (Partition.isRead_ofText text.toList).reads hx
    obtain ⟨c, tail, spelled, -⟩ := read.head_not_layout
    refine ⟨x, c, tail, hx, rfl, rfl, spelled, ?_, ?_⟩
    · rw [← all, Partition.spelling_eq hx, spelled, List.cons_append]
    · rw [spelled, List.head?_cons, Position.walk_append]
      rfl
  · refine ⟨P.overrun, P.overrun_le, ?_, ?_⟩
    · rw [same, Partition.tokens, List.getLast?_concat, Partition.endPlace_eq, all]
    · intro closed
      by_contra more
      obtain ⟨t, mem, runaway⟩ := Partition.exists_runaway more w .start
      exact closed t (same ▸ mem) runaway

/-- Reading runs past the end by one more column, by none or by two: the stars before the end
count. -/
example : ["/* a", "/* *", "/* **"].map (fun text => (tokenizeWith 1 text).map (·.position)) =
    [[⟨0, 0⟩, ⟨0, 5⟩], [⟨0, 0⟩, ⟨0, 4⟩], [⟨0, 0⟩, ⟨0, 7⟩]] := by
  decide +kernel

theorem Token.mem_of_nthAtom? {tokens : List Token} {name : String} {n : Nat} {t : Token}
    (h : nthAtom? tokens name n = some t) : t ∈ tokens ∧ t.isAtom name := by
  cases n with
  | zero => cases h
  | succ n => exact List.mem_filter.1 (List.mem_of_getElem? h)

theorem Token.nthAtom?_tokenize_nil (name : String) (n : Nat) :
    nthAtom? (tokenize "") name n = none := by
  cases n with
  | zero => rfl
  | succ n =>
    simp [nthAtom?, tokenize, tokenizeWith_eq_items, Item.ofText, Item.tokens, isAtom]

namespace Mark

/-- A mark without lines in the source has no place, as if its lines were empty. -/
theorem resolve_eq (m : Mark) (source : String) : m.resolve source =
    if m.lastLine < m.firstLine then none
    else (Token.nthAtom? (tokenize (m.excerpt source)) m.name m.occurrence).map m.placeOf := by
  rw [resolve, checkedResolve]
  split_ifs with reversed empty
  · rfl
  · rw [excerpt, empty, List.intercalate_nil, Token.nthAtom?_tokenize_nil, Option.map_none]
  · rw [checkedTokens_eq]
    rfl

theorem checkedResolve_eq (m : Mark) (source : String) :
    m.checkedResolve source = .ok (m.resolve source) := by
  rw [resolve, checkedResolve]
  split_ifs
  · rfl
  · rfl
  · rw [checkedTokens_eq]
    rfl

end Mark

/-- Where tabs do not move backwards, the tokens of a text stand in reading order with that of the
end behind them all, and none before the first column. So no two tokens stand in one place, and the
column of a resolved mark is that of the atom found. -/
theorem tokenizeWith_ascending (w : Int) (hw : 0 ≤ w) (text : String) :
    let tokens := tokenizeWith w text
    tokens.Pairwise (fun s t => s.position < t.position) ∧
    (∀ t ∈ tokens, 0 ≤ t.position.column) ∧ (tokens.map (·.position)).Nodup ∧
    ∀ (m : Mark) (source : String) (place : MarkedPlace), m.resolve source = some place →
      ∃ t, Token.nthAtom? (tokenize (m.excerpt source)) m.name m.occurrence = some t ∧
        (place.column : Int) = t.position.column := by
  intro tokens
  have columns (v : Int) (hv : 0 ≤ v) (cs : String) : ∀ t ∈ tokenizeWith v cs,
      0 ≤ t.position.column := by
    intro t ht
    rw [tokenizeWith_eq] at ht
    exact Partition.column_of_mem_tokens hv (Partition.isRead_ofText _) (by decide) ht
  have ordered : tokens.Pairwise fun s t => s.position < t.position := by
    have pairs := Partition.pairwise_tokens hw (Partition.isRead_ofText text.toList) .start
    rwa [← tokenizeWith_eq] at pairs
  refine ⟨ordered, columns w hw text, ?_, ?_⟩
  · exact List.pairwise_map.2 (ordered.imp ne_of_lt)
  · intro m source place found
    rw [Mark.resolve_eq] at found
    split at found
    · cases found
    · obtain ⟨t, atom, rfl⟩ := Option.map_eq_some_iff.1 found
      have column := columns 1 (by decide) _ t (Token.mem_of_nthAtom? atom).1
      exact ⟨t, atom, Int.toNat_of_nonneg column⟩

/-- Tabs may leave the place as it is. -/
theorem ascending_without_tabs :
    (0 : Int) ≤ 0 ∧ (tokenizeWith 0 "\ta\tb(\n\t'c'").map (·.position) =
      [⟨0, 0⟩, ⟨0, 1⟩, ⟨0, 2⟩, ⟨1, 0⟩, ⟨1, 3⟩] ∧
    (tokenizeWith 0 "\ta\tb(\n\t'c'").Pairwise (fun s t => s.position < t.position) := by
  have law := tokenizeWith_ascending 0 (Int.le_refl 0) "\ta\tb(\n\t'c'"
  exact ⟨Int.le_refl 0, by decide +kernel, law.1⟩

end PrologSource
