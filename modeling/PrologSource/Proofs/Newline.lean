import PrologSource.Proofs.Displacement
import PrologSource.Proofs.Lookahead.Item
import PrologSource.Proofs.Places

namespace PrologSource
namespace Item

/-- The newline between `u` and `v` stands for itself: it is part of no lexeme and no comment. -/
def IsFreeNewline (u v : List Char) : Prop :=
  ∃ before after, ofText (u ++ '\n' :: v) = before ++ .layout '\n' :: after ∧
    before.flatMap spelling = u

variable {u v c z : List Char} {before after : List Item}

private theorem ofText_before {u v : List Char}
    (h : ofText (u ++ '\n' :: v) = before ++ .layout '\n' :: after)
    (hu : before.flatMap spelling = u) : ofText u = before := by
  induction before generalizing u with
  | nil =>
    subst hu
    rw [List.flatMap_nil, ofText]
  | cons i before ih =>
    have all := spelling_ofText (u ++ '\n' :: v)
    rw [h, ← hu] at all
    obtain rfl : after.flatMap spelling = v := by simpa [spelling] using all
    have left : (before ++ .layout '\n' :: after).flatMap spelling =
        before.flatMap spelling ++ '\n' :: after.flatMap spelling := by simp [spelling]
    rw [List.cons_append] at h
    obtain ⟨read, rest⟩ := reads_of_ofText_eq h
    rw [left] at read rest
    have nothing : ∀ c ∈ ([] : List Char).head?, isLayout c := by
      intro c hc
      cases hc
    have short := read.relocate (.inl (by decide)) nothing fun _ => rfl
    rw [List.append_nil, List.append_nil] at short
    rw [short.ofText_eq, ih rest rfl]

theorem IsFreeNewline.ofText_eq (h : IsFreeNewline u v) :
    ofText (u ++ '\n' :: v) = ofText u ++ .layout '\n' :: ofText v := by
  obtain ⟨before, after, all, rfl⟩ := h
  have run : IsRun (before ++ .layout '\n' :: after) := all ▸ isRun_ofText _
  have rest := run.of_append.cons.2
  have spelled := spelling_ofText (before.flatMap spelling ++ '\n' :: v)
  rw [all] at spelled
  obtain rfl : after.flatMap spelling = v := by simpa [spelling] using spelled
  rw [all, ofText_before all rfl, show ofText (after.flatMap spelling) = after from rest]

theorem isFreeNewline_iff (u v : List Char) : IsFreeNewline u v ↔
    ofText (u ++ '\n' :: v) = ofText u ++ .layout '\n' :: ofText v :=
  ⟨IsFreeNewline.ofText_eq, fun h => ⟨_, _, h, spelling_ofText u⟩⟩

instance (u v : List Char) : Decidable (IsFreeNewline u v) :=
  decidable_of_iff' _ (isFreeNewline_iff u v)

/-- What holds of all newlines is a matter of the places where they stand. -/
theorem forall_newline {cs : List Char} {p : List Char → List Char → Prop}
    (h : ∀ k < cs.length, cs[k]? = some '\n' → p (cs.take k) (cs.drop (k + 1))) (u v : List Char)
    (split : cs = u ++ '\n' :: v) : p u v := by
  subst split
  have here := h u.length (by simp) (by simp)
  simpa using here

/-- Whether a newline is free does not depend on the text before a free newline. -/
theorem IsFreeNewline.behind (h : IsFreeNewline (u ++ '\n' :: c) z)
    (first : IsFreeNewline u (c ++ '\n' :: z)) : IsFreeNewline c z := by
  obtain ⟨before, after, all, spelled⟩ := h
  rw [List.append_assoc, List.cons_append, first.ofText_eq] at all
  rcases List.append_eq_append_iff.1 all with ⟨middle, rfl, rest⟩ | ⟨middle, same, -⟩
  · rw [List.flatMap_append, spelling_ofText] at spelled
    have spelled := List.append_cancel_left spelled
    cases middle with
    | nil => cases spelled
    | cons i middle =>
      obtain ⟨rfl, tail⟩ := List.cons.inj rest
      exact ⟨middle, after, tail, (List.cons.inj spelled).2⟩
  · have short := congrArg (List.length ∘ List.flatMap spelling) same
    simp [spelling_ofText, spelled] at short

theorem tokens_ne_nil (w : Int) (p : Position) (afterGap : Bool) (items : List Item) :
    tokens w p afterGap items ≠ [] := by
  cases items with
  | nil => exact List.cons_ne_nil _ _
  | cons i items =>
    exact List.append_ne_nil_of_right_ne_nil _ (tokens_ne_nil w _ _ items)

/-- Behind a newline, tokens do not depend on what stands before it. -/
theorem tokens_newline (run : IsRun (before ++ .layout '\n' :: after)) (w : Int) (p : Position)
    (afterGap : Bool) : tokens w p afterGap (before ++ .layout '\n' :: after) =
      (tokens w p afterGap before).dropLast ++
        tokens w ⟨p.line + (before.flatMap spelling).count '\n' + 1, -1⟩ true after := by
  induction before generalizing p afterGap with
  | nil => rfl
  | cons i before ih =>
    obtain ⟨read, rest⟩ := IsRun.cons run
    have more : (before ++ .layout '\n' :: after).flatMap spelling ≠ [] := by simp [spelling]
    have line : (i.after w p).line = p.line + i.spelling.count '\n' := by
      rw [after_eq_walk (read.overrun_eq_zero more), Position.line_walk]
    rw [List.cons_append, tokens, ih rest, line, tokens,
      List.dropLast_append_of_ne_nil (tokens_ne_nil w _ _ before), List.append_assoc,
      List.flatMap_cons, List.count_append, Nat.add_assoc p.line]

theorem filter_isAtom_tokens (w : Int) (p : Position) (afterGap : Bool) (items : List Item)
    (name : String) : (tokens w p afterGap items).filter (·.isAtom name) =
      (tokens w p false items).filter (·.isAtom name) := by
  cases items with
  | nil => rfl
  | cons i items =>
    have same : (i.token? w p afterGap).toList.filter (·.isAtom name) =
        (i.token? w p false).toList.filter (·.isAtom name) := by
      cases i with
      | lexeme l =>
        cases l with
        | openParen => cases afterGap <;> rfl
        | _ => rfl
      | _ => rfl
    rw [tokens, tokens, List.filter_append, List.filter_append, same]

theorem filter_isAtom_dropLast (w : Int) (p : Position) (afterGap : Bool) (items : List Item)
    (name : String) : (tokens w p afterGap items).dropLast.filter (·.isAtom name) =
      (tokens w p afterGap items).filter (·.isAtom name) := by
  induction items generalizing p afterGap with
  | nil => rfl
  | cons i items ih =>
    rw [tokens, List.dropLast_append_of_ne_nil (tokens_ne_nil w _ _ items), List.filter_append,
      ih, List.filter_append]

theorem tokens_movedTo {items : List Item} (run : IsRun items) (w : Int) (o p : Position) :
    tokens w (p.movedTo o) false items = (tokens w p false items).map (·.movedTo o) := by
  have here := Partition.tokens_ofItems run w p []
  have there := Partition.tokens_ofItems run w (p.movedTo o) []
  simp only [Position.walk_nil, ne_eq, not_true_eq_false, decide_false] at here there
  rw [here, there, Partition.tokens_movedTo]

end Item

theorem Item.dropLast_tokens (w : Int) (text : String) :
    (Item.tokens w .start false (Item.ofText text.toList)).dropLast =
      (tokenizeWith w text).filter (·.kind ≠ .endOfFile) := by
  have items := tokenizeWith_eq w text
  rw [items, Partition.filter_tokens]
  rw [tokenizeWith_eq_items] at items
  rw [items, Partition.tokens, List.dropLast_concat]

def Token.lowered (n : Nat) (t : Token) : Token :=
  { t with position := ⟨t.position.line + n, t.position.column⟩ }

theorem Token.movedTo_eq_lowered (t : Token) (n : Nat) : t.movedTo ⟨n, 0⟩ = t.lowered n := by
  simp [movedTo, lowered, Position.movedTo, Nat.add_comm]

/-- What follows a newline is read alike on every line. -/
theorem Item.tokens_below {items : List Item} (run : IsRun (.layout '\n' :: items)) (w : Int)
    (n : Nat) : tokens w ⟨Position.start.line + n + 1, -1⟩ true items =
      (tokens w .start false (.layout '\n' :: items)).map (·.lowered n) := by
  have moved := tokens_movedTo run w ⟨n, 0⟩ .start
  simp only [Token.movedTo_eq_lowered] at moved
  rw [← moved, Nat.add_right_comm, Nat.add_comm _ n]
  rfl

/-- A free newline cuts the tokens of a text in two. First come those of the text before it, without
that of the end, and then those of the text from the newline on, lower by the lines before it. -/
theorem tokenizeWith_newline (w : Int) (u v : String)
    (h : Item.IsFreeNewline u.toList v.toList) :
    tokenizeWith w (u ++ "\n" ++ v) =
      (tokenizeWith w u).filter (·.kind ≠ .endOfFile) ++
        (tokenizeWith w ("\n" ++ v)).map (·.lowered (u.toList.count '\n')) := by
  have whole : (u ++ "\n" ++ v).toList = u.toList ++ '\n' :: v.toList := by simp
  have lower : ("\n" ++ v).toList = '\n' :: v.toList := by simp
  have newline : Item.ofText ('\n' :: v.toList) = .layout '\n' :: Item.ofText v.toList :=
    (Item.reads_layout (by decide) v.toList).ofText_eq
  have second : tokenizeWith w ("\n" ++ v) =
      Item.tokens w .start false (.layout '\n' :: Item.ofText v.toList) := by
    rw [tokenizeWith_eq_items, lower, newline]
  have run : Item.IsRun (Item.ofText u.toList ++ .layout '\n' :: Item.ofText v.toList) :=
    h.ofText_eq ▸ Item.isRun_ofText _
  calc tokenizeWith w (u ++ "\n" ++ v)
      = Item.tokens w .start false
          (Item.ofText u.toList ++ .layout '\n' :: Item.ofText v.toList) := by
        rw [tokenizeWith_eq_items, whole, h.ofText_eq]
    _ = (Item.tokens w .start false (Item.ofText u.toList)).dropLast ++
          Item.tokens w ⟨Position.start.line + u.toList.count '\n' + 1, -1⟩ true
            (Item.ofText v.toList) := by
        rw [Item.tokens_newline run, Item.spelling_ofText]
    _ = (tokenizeWith w u).filter (·.kind ≠ .endOfFile) ++
          (tokenizeWith w ("\n" ++ v)).map (·.lowered (u.toList.count '\n')) := by
        rw [Item.dropLast_tokens, Item.tokens_below run.of_append, second]

/-- The newline behind a line comment is free, and a gap before the parenthesis. -/
theorem tokens_behind_lineComment :
    Item.IsFreeNewline "p(0'a)%(".toList "(\nq) /*".toList ∧
    tokenizeWith 1 ("p(0'a)%(" ++ "\n" ++ "(\nq) /*") =
      [⟨.atom, "p", ⟨0, 0⟩⟩, ⟨.soloNoLayout, "(", ⟨0, 1⟩⟩, ⟨.number, "97", ⟨0, 2⟩⟩,
        ⟨.solo, ")", ⟨0, 5⟩⟩, ⟨.solo, "(", ⟨1, 0⟩⟩, ⟨.atom, "q", ⟨2, 0⟩⟩, ⟨.solo, ")", ⟨2, 1⟩⟩,
        ⟨.solo, "/* ...", ⟨2, 3⟩⟩, ⟨.endOfFile, "", ⟨2, 6⟩⟩] := by
  have free : Item.IsFreeNewline "p(0'a)%(".toList "(\nq) /*".toList := by decide +kernel
  refine ⟨free, ?_⟩
  rw [tokenizeWith_newline 1 _ _ free]
  decide +kernel

def atomsNamed (name : String) (cs : List Char) : List Token :=
  (tokenize (String.ofList cs)).filter (·.isAtom name)

/-- The atoms of a text are those before a free newline and those behind it. -/
theorem atomsNamed_newline {u v : List Char} (h : Item.IsFreeNewline u v) (name : String) :
    atomsNamed name (u ++ '\n' :: v) =
      atomsNamed name u ++ (atomsNamed name v).map (·.movedTo ⟨u.count '\n' + 1, 0⟩) := by
  have run : Item.IsRun (Item.ofText u ++ .layout '\n' :: Item.ofText v) :=
    h.ofText_eq ▸ Item.isRun_ofText _
  have place : (⟨Position.start.line + u.count '\n' + 1, -1⟩ : Position) =
      Position.start.movedTo ⟨u.count '\n' + 1, 0⟩ := by
    simp [Position.start, Position.movedTo]
  simp only [atomsNamed, tokenize, tokenizeWith_eq_items, String.toList_ofList]
  rw [h.ofText_eq, Item.tokens_newline run, Item.spelling_ofText, List.filter_append,
    Item.filter_isAtom_dropLast, Item.filter_isAtom_tokens _ _ true, place,
    Item.tokens_movedTo (Item.isRun_ofText v), List.filter_map]
  rfl

/-- An atom stands on a line of its text, and not before the first column. -/
theorem place_of_mem_atomsNamed {name : String} {cs : List Char} {t : Token}
    (h : t ∈ atomsNamed name cs) :
    t.position.line ≤ cs.count '\n' ∧ 0 ≤ t.position.column := by
  obtain ⟨mem, atom⟩ := List.mem_filter.1 h
  rw [tokenize, tokenizeWith_eq, String.toList_ofList] at mem
  have isRead := Partition.isRead_ofText cs
  refine ⟨?_, Partition.column_of_mem_tokens (by decide) isRead (by decide) mem⟩
  have part : t ∈ Part.tokens 1 .start (Partition.ofText cs).parts := by
    rw [← Partition.filter_tokens, List.mem_filter]
    refine ⟨mem, decide_eq_true fun last => ?_⟩
    simp [Token.isAtom, last] at atom
  have below := Position.line_le (Partition.place_of_mem_tokens (by decide) isRead part)
  rw [Partition.spelling_ofText, Position.line_walk] at below
  exact below.trans (Nat.le_of_eq (Nat.zero_add _))

end PrologSource
