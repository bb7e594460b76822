import PrologSource.Proofs.Partition
import PrologSource.Proofs.Scanner.Run

namespace PrologSource

namespace Position

theorem advance_of_not_layout {c : Char} (h : ¬ isLayout c) (w : Int) (p : Position) :
    p.advance w (some c) = ⟨p.line, p.column + 1⟩ := by
  unfold advance
  split
  · next same => exact absurd (by cases same; decide) h
  · next same => exact absurd (by cases same; decide) h
  · rfl

theorem line_walk (w : Int) (p : Position) (cs : List Char) :
    (p.walk w cs).line = p.line + cs.count '\n' := by
  induction cs generalizing p with
  | nil => rfl
  | cons c cs ih =>
    have step : (p.advance w (some c)).line = p.line + if c = '\n' then 1 else 0 := by
      unfold advance
      split
      · next same => simp [Option.some.inj same]
      · next same => simp [Option.some.inj same]
      · next other _ => simp [show c ≠ '\n' from fun same => other (congrArg some same)]
    rw [walk_cons, ih, step, List.count_cons]
    simp only [beq_iff_eq]
    omega

theorem column_walk {w : Int} (hw : 0 ≤ w) {p : Position} (hp : -1 ≤ p.column)
    (cs : List Char) : -1 ≤ (p.walk w cs).column := by
  induction cs generalizing p with
  | nil => exact hp
  | cons c cs ih =>
    rw [walk_cons]
    refine ih ?_
    unfold advance
    split
    · exact Int.le_refl _
    · change -1 ≤ p.column + w
      omega
    · change -1 ≤ p.column + 1
      omega

end Position

def Part.token (w : Int) (p : Position) (x : Part) : Token :=
  ⟨x.lexeme.kind (x.gap ≠ []), String.ofList x.lexeme.text,
    (p.walk w x.gap).advance w x.lexeme.spelling.head?⟩

def Part.tokens (w : Int) : Position → List Part → List Token
  | _, [] => []
  | p, x :: rest => x.token w p :: tokens w (p.walk w x.spelling) rest

namespace Partition

def overrun (P : Partition) : Nat :=
  (P.parts.getLast?.map fun x => (Item.lexeme x.lexeme).overrun).getD 0

def endPlace (w : Int) (p : Position) (P : Partition) : Position :=
  Position.advance w ⟨(p.walk w P.spelling).line, (p.walk w P.spelling).column + P.overrun⟩ none

def tokens (w : Int) (p : Position) (P : Partition) : List Token :=
  Part.tokens w p P.parts ++ [⟨.endOfFile, "", P.endPlace w p⟩]

end Partition

namespace Item

/-- Only at the end of a text does reading run past it. -/
theorem Reads.overrun_eq_zero {cs rest : List Char} {i : Item} (h : Reads cs i rest)
    (more : rest ≠ []) : i.overrun = 0 := by
  have fits := h.fits
  cases i with
  | lexeme l =>
    cases l with
    | runaway body => exact absurd fits.1 more
    | _ => rfl
  | _ => rfl

end Item

namespace Partition

theorem endPlace_push {x : Part} {P : Partition}
    (h : P.parts = [] → (Item.lexeme x.lexeme).overrun = 0) (w : Int) (p : Position) :
    (P.push x).endPlace w p = P.endPlace w (p.walk w x.spelling) := by
  have same : (P.push x).overrun = P.overrun := by
    unfold overrun push
    cases last : P.parts.getLast? with
    | none =>
      have none := List.getLast?_eq_none_iff.1 last
      simp [none, h none]
    | some y => simp [List.getLast?_cons, last]
  rw [endPlace, endPlace, same, spelling_push, Position.walk_append]

theorem tokens_push {x : Part} {P : Partition}
    (h : P.parts = [] → (Item.lexeme x.lexeme).overrun = 0) (w : Int) (p : Position) :
    (P.push x).tokens w p = x.token w p :: P.tokens w (p.walk w x.spelling) := by
  rw [tokens, endPlace_push h]
  rfl

theorem tokens_ofItems {items : List Item} (run : Item.IsRun items) (w : Int) (p : Position)
    (gap : List Char) :
    Item.tokens w (p.walk w gap) (gap ≠ []) items = (ofItems gap items).tokens w p := by
  induction items generalizing p gap with
  | nil => simp [Item.tokens, ofItems, tokens, Part.tokens, endPlace, overrun, spelling]
  | cons i items ih =>
    obtain ⟨read, tail⟩ := run.cons
    cases h : i.lexeme? with
    | none =>
      have zero : i.overrun = 0 := by
        cases i with
        | lexeme l => cases h
        | _ => rfl
      have step := ih tail p (gap ++ i.spelling)
      have nonempty : gap ++ i.spelling ≠ [] := by simp [read.spelling_ne_nil]
      rw [Position.walk_append, decide_eq_true nonempty] at step
      rw [Item.tokens, ofItems, h, Item.after_eq_walk zero, Item.token?, Item.isGap, h]
      exact step
    | some l =>
      obtain rfl : i = .lexeme l := by
        cases i <;> cases h
        rfl
      change _ = ((ofItems [] items).push ⟨gap, l⟩).tokens w p
      rw [Item.tokens]
      cases items with
      | nil =>
        simp [Item.tokens, Item.token?, Item.lexeme?, Item.after, Item.spelling, ofItems, tokens,
          push, Part.tokens, Part.token, endPlace, overrun, spelling, Part.spelling,
          Position.walk_append]
      | cons j items =>
        have more : (j :: items).flatMap Item.spelling ≠ [] := by
          simp [tail.cons.1.spelling_ne_nil]
        have zero := read.overrun_eq_zero more
        have step := ih tail ((p.walk w gap).walk w l.spelling) []
        rw [tokens_push (fun _ => zero), Part.spelling, Position.walk_append, ← step,
          Item.after_eq_walk zero]
        rfl

end Partition

/-- The tokens of a text are those of its partition. -/
theorem tokenizeWith_eq (w : Int) (text : String) :
    tokenizeWith w text = (Partition.ofText text.toList).tokens w .start :=
  (tokenizeWith_eq_items w text).trans
    (Partition.tokens_ofItems (Item.isRun_ofText text.toList) w .start [])

/-- The token of the lexeme that a text begins with stands at the start, and those of the rest
behind it. -/
theorem tokenizeWith_of_reads {text : String} {rest : List Char} {l : Lexeme}
    (h : Item.Reads text.toList (.lexeme l) rest) (closed : (Item.lexeme l).overrun = 0) (w : Int) :
    tokenizeWith w text = ⟨l.kind false, String.ofList l.text, ⟨0, 0⟩⟩ ::
      (Partition.ofText rest).tokens w (Position.start.walk w l.spelling) := by
  obtain ⟨c, tail, spelled, front⟩ := h.head_not_layout
  rw [tokenizeWith_eq, Partition.ofText_of_reads h, Partition.tokens_push fun _ => closed,
    Part.token, spelled, List.head?_cons]
  dsimp only [Position.walk_nil]
  rw [Position.advance_of_not_layout front, Part.spelling, spelled]
  rfl

theorem tokenizeWith_of_reads_all {text : String} {l : Lexeme}
    (h : Item.Reads text.toList (.lexeme l) []) (closed : (Item.lexeme l).overrun = 0) (w : Int) :
    tokenizeWith w text = [⟨l.kind false, String.ofList l.text, ⟨0, 0⟩⟩,
      ⟨.endOfFile, "", (Position.start.walk w text.toList).advance w none⟩] := by
  have spelled : l.spelling = text.toList := by
    rw [← h.spelling_append, List.append_nil]
    rfl
  rw [tokenizeWith_of_reads h closed, spelled, Partition.ofText, Item.ofText]
  simp [Partition.ofItems, Partition.tokens, Part.tokens, Partition.endPlace, Partition.overrun,
    Partition.spelling]

theorem Part.length_tokens (w : Int) (p : Position) (parts : List Part) :
    (Part.tokens w p parts).length = parts.length := by
  induction parts generalizing p with
  | nil => rfl
  | cons x parts ih => rw [Part.tokens, List.length_cons, List.length_cons, ih]

theorem Part.tokens_append (w : Int) (p : Position) (first rest : List Part) :
    Part.tokens w p (first ++ rest) =
      Part.tokens w p first ++ Part.tokens w (p.walk w (first.flatMap Part.spelling)) rest := by
  induction first generalizing p with
  | nil => rfl
  | cons x first ih =>
    rw [List.cons_append, Part.tokens, ih, Part.tokens, List.flatMap_cons, Position.walk_append]
    rfl

namespace Partition
variable {P : Partition} {j : Nat} {x : Part}

theorem length_tokens (w : Int) (p : Position) (P : Partition) :
    (P.tokens w p).length = P.parts.length + 1 := by
  rw [tokens, List.length_append, Part.length_tokens, List.length_singleton]

theorem tokens_getElem?_length (w : Int) (p : Position) (P : Partition) :
    (P.tokens w p)[P.parts.length]? = some ⟨.endOfFile, "", P.endPlace w p⟩ := by
  rw [tokens, List.getElem?_append_right (by rw [Part.length_tokens]), Part.length_tokens,
    Nat.sub_self]
  rfl

theorem drop_tokens (h : j ≤ P.parts.length) (w : Int) (p : Position) :
    (P.tokens w p).drop j =
      Part.tokens w (p.walk w ((P.parts.take j).flatMap Part.spelling)) (P.parts.drop j) ++
        [⟨.endOfFile, "", P.endPlace w p⟩] := by
  have first : (Part.tokens w p (P.parts.take j)).length = j := by
    rw [Part.length_tokens, List.length_take, Nat.min_eq_left h]
  have all := Part.tokens_append w p (P.parts.take j) (P.parts.drop j)
  rw [List.take_append_drop] at all
  rw [tokens, all, List.append_assoc, List.drop_append_of_le_length (by omega),
    List.drop_eq_nil_of_le (by omega), List.nil_append]

theorem drop_tokens_cons (h : P.parts[j]? = some x) (w : Int) (p : Position) :
    (P.tokens w p).drop j =
      x.token w (p.walk w ((P.parts.take j).flatMap Part.spelling)) ::
        (P.tokens w p).drop (j + 1) := by
  obtain ⟨inside, rfl⟩ := List.getElem?_eq_some_iff.1 h
  rw [drop_tokens (by omega), drop_tokens (by omega), List.drop_eq_getElem_cons inside,
    List.take_add_one, h, Option.toList_some, List.flatMap_append, Position.walk_append]
  simp [Part.tokens]

/-- The token of a part stands at the first character of its lexeme. -/
theorem tokens_getElem? (h : P.parts[j]? = some x) (w : Int) (p : Position) :
    (P.tokens w p)[j]? = some ⟨x.lexeme.kind (x.gap ≠ []), String.ofList x.lexeme.text,
      (p.walk w (P.before j)).advance w x.lexeme.spelling.head?⟩ := by
  have front := congrArg List.head? (drop_tokens_cons h w p)
  rw [List.head?_drop, List.head?_cons] at front
  rw [front, before_eq h, Position.walk_append]
  rfl

/-- Behind the tokens of the parts there is only that of the end. -/
theorem eq_end_of_token {w : Int} {p : Position} {t : Token} (h : (P.tokens w p)[j]? = some t)
    (hx : P.parts[j]? = none) :
    j = P.parts.length ∧ t = ⟨.endOfFile, "", P.endPlace w p⟩ := by
  have beyond := List.getElem?_eq_none_iff.1 hx
  rw [tokens, List.getElem?_append_right (by rwa [Part.length_tokens]), Part.length_tokens] at h
  have last := List.mem_singleton.1 (List.mem_of_getElem? h)
  have short := (List.getElem?_eq_some_iff.1 h).1
  rw [List.length_singleton] at short
  exact ⟨by omega, last⟩

/-- Every token but the last is that of a part. -/
theorem exists_part_of_token {w : Int} {p : Position} {t : Token}
    (h : (P.tokens w p)[j]? = some t) (inside : t.kind ≠ .endOfFile) :
    ∃ x, P.parts[j]? = some x ∧ t = ⟨x.lexeme.kind (x.gap ≠ []), String.ofList x.lexeme.text,
      (p.walk w (P.before j)).advance w x.lexeme.spelling.head?⟩ := by
  cases hx : P.parts[j]? with
  | some x => exact ⟨x, rfl, Option.some.inj (h.symm.trans (tokens_getElem? hx w p))⟩
  | none => exact absurd (congrArg Token.kind (eq_end_of_token h hx).2) inside

/-- What the tokens of a partition are, wherever they stand. -/
theorem map_tokens (w : Int) (p : Position) (P : Partition) :
    (P.tokens w p).map (fun t => (t.kind, t.text)) =
      P.parts.map (fun x => (x.lexeme.kind (x.gap ≠ []), String.ofList x.lexeme.text)) ++
        [(.endOfFile, "")] := by
  obtain ⟨parts, ending⟩ := P
  rw [tokens, List.map_append]
  refine congrArg (· ++ _) ?_
  dsimp only
  induction parts generalizing p with
  | nil => rfl
  | cons x parts ih =>
    rw [Part.tokens, List.map_cons, ih, List.map_cons]
    rfl

end Partition

theorem length_tokenizeWith (w : Int) (text : String) :
    (tokenizeWith w text).length = (Partition.ofText text.toList).parts.length + 1 := by
  rw [tokenizeWith_eq, Partition.length_tokens]

end PrologSource
