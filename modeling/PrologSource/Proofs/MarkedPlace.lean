import PrologSource.Proofs.Places

namespace PrologSource

/-- Where a tab moves by one column, columns count characters. -/
theorem Position.walk_line {cs : List Char} (h : '\n' ∉ cs) (p : Position) :
    p.walk 1 cs = ⟨p.line, p.column + cs.length⟩ := by
  induction cs generalizing p with
  | nil => simp
  | cons c cs ih =>
    rw [List.mem_cons, not_or] at h
    have step : p.advance 1 (some c) = ⟨p.line, p.column + 1⟩ := by
      unfold advance
      split
      · next same => exact absurd (Option.some.inj same).symm h.1
      · rfl
      · rfl
    rw [walk_cons, step, ih h.2, List.length_cons, Int.natCast_add_one, Int.add_assoc,
      Int.add_comm 1]

/-- A word stands on one side of a newline. -/
theorem word_beside_newline {line rest word a b : List Char} (nonempty : word ≠ [])
    (whole : '\n' ∉ word) (split : line ++ '\n' :: rest = a ++ (word ++ b)) :
    (∃ last, line = a ++ (word ++ last) ∧ b = last ++ '\n' :: rest) ∨
      ∃ a', a = line ++ '\n' :: a' ∧ rest = a' ++ (word ++ b) := by
  rcases List.append_eq_append_iff.1 split with ⟨m, rfl, behind⟩ | ⟨m, rfl, within⟩
  · cases m with
    | nil =>
      obtain ⟨c, tail, rfl⟩ := List.exists_cons_of_ne_nil nonempty
      obtain ⟨rfl, -⟩ := List.cons.inj behind
      exact absurd List.mem_cons_self whole
    | cons c m =>
      obtain ⟨rfl, same⟩ := List.cons.inj behind
      exact .inr ⟨m, rfl, same⟩
  · rcases List.append_eq_append_iff.1 within with ⟨last, rfl, behind⟩ | ⟨k, rfl, across⟩
    · exact .inl ⟨last, rfl, behind⟩
    · cases k with
      | nil => exact .inl ⟨[], by simp, across.symm⟩
      | cons c k =>
        obtain ⟨rfl, -⟩ := List.cons.inj across
        exact absurd (List.mem_append_right m List.mem_cons_self) whole

/-- A word in joined lines is a word of one of them, from any line on that the first one is counted
as. -/
theorem exists_line_from {lines : List (List Char)} (inside : ∀ line ∈ lines, '\n' ∉ line)
    {word a b : List Char} (nonempty : word ≠ []) (whole : '\n' ∉ word)
    (split : List.intercalate ['\n'] lines = a ++ (word ++ b)) :
    ∃ j first last, lines[j]? = some (first ++ (word ++ last)) ∧
      (∃ tail, b = last ++ tail ∧ ∀ c ∈ tail.head?, c = '\n') ∧
      ∀ n, Position.walk 1 ⟨n, -1⟩ a = ⟨n + j, -1 + first.length⟩ := by
  induction lines generalizing a with
  | nil => simp [nonempty] at split
  | cons line lines ih =>
    have alone := inside line List.mem_cons_self
    have sides : (∃ last tail, line = a ++ (word ++ last) ∧ b = last ++ tail ∧
          ∀ c ∈ tail.head?, c = '\n') ∨
        ∃ a', a = line ++ '\n' :: a' ∧ List.intercalate ['\n'] lines = a' ++ (word ++ b) := by
      cases lines with
      | nil => exact .inl ⟨b, [], by simpa using split, by simp, by simp⟩
      | cons next lines =>
        rw [List.intercalate_cons_cons, List.append_assoc, List.singleton_append] at split
        rcases word_beside_newline nonempty whole split with ⟨last, here, behind⟩ | later
        · exact .inl ⟨last, _, here, behind, by simp⟩
        · exact .inr later
    rcases sides with ⟨last, tail, rfl, behind⟩ | ⟨a', rfl, rest⟩
    · rw [List.mem_append, not_or] at alone
      exact ⟨0, a, last, rfl, ⟨tail, behind⟩, fun n => Position.walk_line alone.1 ⟨n, -1⟩⟩
    · obtain ⟨j, first, last, there, behind, place⟩ :=
        ih (fun line hl => inside line (List.mem_cons_of_mem _ hl)) rest
      refine ⟨j + 1, first, last, there, behind, fun n => ?_⟩
      rw [Position.walk_append, Position.walk_line alone, Position.walk_cons]
      change Position.walk 1 ⟨n + 1, -1⟩ a' = _
      rw [place, Nat.add_right_comm, Nat.add_assoc]

/-- A word in joined lines is a word of one of them. What stands before it on the line gives its
column, and what stands behind it goes on up to a newline. -/
theorem exists_line {lines : List (List Char)} (inside : ∀ line ∈ lines, '\n' ∉ line)
    {word a b : List Char} (nonempty : word ≠ []) (whole : '\n' ∉ word)
    (split : List.intercalate ['\n'] lines = a ++ (word ++ b)) :
    ∃ j first last, lines[j]? = some (first ++ (word ++ last)) ∧
      (∃ tail, b = last ++ tail ∧ ∀ c ∈ tail.head?, c = '\n') ∧
      (Position.start.walk 1 a).line = j ∧ (Position.start.walk 1 a).column + 1 = first.length := by
  obtain ⟨j, first, last, there, behind, walk⟩ := exists_line_from inside nonempty whole split
  refine ⟨j, first, last, there, behind, ?_, ?_⟩
  · rw [Position.start, walk, Nat.zero_add]
  · rw [Position.start, walk, Int.add_right_comm, Int.add_left_neg, Int.zero_add]

theorem Lexeme.eq_quoted_of_newline {l : Lexeme} {rest : List Char} (fits : l.Fits rest)
    {afterGap : Bool} (atom : l.kind afterGap = .atom) (newline : '\n' ∈ l.spelling) :
    ∃ q, l = .quoted q ∧ q.quote = .single := by
  cases l with
  | name head tail =>
    rcases List.mem_cons.1 newline with rfl | later
    · exact absurd fits.1 (by decide)
    · exact absurd (fits.2.1 _ later) (by decide)
  | graphic head tail =>
    rcases List.mem_cons.1 newline with rfl | later
    · exact absurd fits.1 (by decide)
    · exact absurd (fits.2.1 _ later) (by decide)
  | soloAtom c =>
    obtain rfl := List.mem_singleton.1 newline
    exact absurd fits (by simp [Fits])
  | quoted q =>
    refine ⟨q, rfl, ?_⟩
    cases mark : q.quote with
    | single => rfl
    | double => simp [kind, mark] at atom
  | openParen => cases afterGap <;> cases atom
  | solo _ | fullStop | number _ | runaway _ => cases atom

/-- An atom without quote marks stands on one line. -/
theorem Lexeme.newline_not_mem {l : Lexeme} {rest : List Char} (fits : l.Fits rest)
    {afterGap : Bool} (atom : l.kind afterGap = .atom) (plain : l.spelling.head? ≠ some '\'') :
    '\n' ∉ l.spelling := by
  intro newline
  obtain ⟨q, rfl, mark⟩ := eq_quoted_of_newline fits atom newline
  simp [spelling, Quotation.spelling, Quote.char, mark] at plain

theorem exists_lexeme_of_atom {text name : String} {t : Token} (ht : t ∈ tokenize text)
    (atom : t.isAtom name) :
    ∃ a l b, text.toList = a ++ (l.spelling ++ b) ∧
      Item.Reads (l.spelling ++ b) (.lexeme l) b ∧ (∃ afterGap, l.kind afterGap = .atom) ∧
      l.text = name.toList ∧
      t.position = ⟨(Position.start.walk 1 a).line, (Position.start.walk 1 a).column + 1⟩ := by
  rw [Token.isAtom, Bool.and_eq_true, decide_eq_true_eq, decide_eq_true_eq] at atom
  obtain ⟨kind, rfl⟩ := atom
  rw [tokenize, tokenizeWith_eq] at ht
  obtain ⟨j, hj⟩ := List.mem_iff_getElem?.1 ht
  obtain ⟨x, hx, rfl⟩ := Partition.exists_part_of_token hj (by rw [kind]; decide)
  have read := (Partition.isRead_ofText text.toList).reads hx
  have split := Partition.spelling_eq hx
  rw [Partition.spelling_ofText] at split
  obtain ⟨c, tail, spelled, front⟩ := read.head_not_layout
  have place := Position.advance_of_not_layout front 1
    (Position.start.walk 1 ((Partition.ofText text.toList).before j))
  refine ⟨_, x.lexeme, _, split, read, ⟨_, kind⟩, String.toList_ofList.symm, ?_⟩
  rw [spelled, List.head?_cons]
  exact place

/-- An atom stands at a word of its text that is its name, or else at a quote mark. -/
theorem exists_word_of_atom {text name : String} {t : Token} (ht : t ∈ tokenize text)
    (atom : t.isAtom name) :
    ∃ a word b, text.toList = a ++ (word ++ b) ∧ word ≠ [] ∧ '\n' ∉ word ∧
      (word = ['\''] ∨ word = name.toList) ∧
      t.position = ⟨(Position.start.walk 1 a).line, (Position.start.walk 1 a).column + 1⟩ := by
  obtain ⟨a, l, b, split, read, ⟨afterGap, kind⟩, text, place⟩ := exists_lexeme_of_atom ht atom
  obtain ⟨c, tail, spelled, -⟩ := read.head_not_layout
  by_cases mark : c = '\''
  · subst mark
    rw [spelled, List.cons_append] at split
    exact ⟨a, ['\''], _, split, List.cons_ne_nil _ _, by decide, .inl rfl, place⟩
  · have plain : l.spelling.head? ≠ some '\'' := by simpa [spelled] using mark
    have own := (Lexeme.isOf read.fits afterGap .start).own
      (.inr (.inr (.inr (.inl ⟨kind, plain⟩))))
    rw [String.toList_ofList, text] at own
    exact ⟨a, l.spelling, b, split, read.spelling_ne_nil,
      Lexeme.newline_not_mem read.fits kind plain, .inr own.symm, place⟩

/-- An atom of joined lines stands on one of them, at its name or at a quote mark. -/
theorem exists_line_of_atom {lines : List (List Char)} (inside : ∀ line ∈ lines, '\n' ∉ line)
    {name : String} {t : Token}
    (ht : t ∈ tokenize (String.ofList (List.intercalate ['\n'] lines))) (atom : t.isAtom name) :
    ∃ cs c, lines[t.position.line]? = some cs ∧ cs[t.position.column.toNat]? = some c ∧
      (c = '\'' ∨ (cs.drop t.position.column.toNat).take name.length = name.toList) := by
  obtain ⟨a, word, b, split, nonempty, whole, spells, place⟩ := exists_word_of_atom ht atom
  rw [String.toList_ofList] at split
  obtain ⟨j, first, last, there, -, line, column⟩ := exists_line inside nonempty whole split
  obtain ⟨c, tail, rfl⟩ := List.exists_cons_of_ne_nil nonempty
  rw [place, line, column]
  refine ⟨_, c, there, by simp, ?_⟩
  rcases spells with mark | spells
  · exact .inl (List.cons.inj mark).1
  · right
    rw [← String.length_toList, ← spells, Int.toNat_natCast, List.drop_left, List.take_left]

/-- A mark is resolved to a place on one of its lines, which the source has. There stands a quote
mark, or else the name of the mark as far as the place extends. -/
theorem Mark.resolve_spells_name (m : Mark) (source : String) (place : MarkedPlace)
    (h : m.resolve source = some place) :
    m.firstLine ≤ place.line ∧ place.line ≤ m.lastLine ∧
    ∃ cs c, (textLines source.toList)[place.line]? = some cs ∧ cs[place.column]? = some c ∧
      (c = '\'' ∨ (cs.take place.endColumn).drop place.column = m.name.toList) := by
  rw [resolve_eq] at h
  split at h
  · cases h
  · rename_i range
    obtain ⟨t, found, rfl⟩ := Option.map_eq_some_iff.1 h
    obtain ⟨mem, atom⟩ := Token.mem_of_nthAtom? found
    have inside : ∀ line ∈ ((textLines source.toList).drop m.firstLine).take
        (m.lastLine - m.firstLine + 1), '\n' ∉ line := by
      intro line hline
      exact newline_not_mem_linesBy (List.mem_of_mem_drop (List.mem_of_mem_take hline))
    obtain ⟨cs, c, there, char, spells⟩ := exists_line_of_atom inside mem atom
    have within : t.position.line < m.lastLine - m.firstLine + 1 :=
      (List.getElem?_eq_some_iff.1 there).1.trans_le (List.length_take_le ..)
    rw [List.getElem?_take_of_lt within, List.getElem?_drop] at there
    refine ⟨Nat.le_add_right .., ?_, cs, c, there, char, ?_⟩
    · change m.firstLine + t.position.line ≤ m.lastLine
      omega
    · rwa [placeOf, List.drop_take, Nat.add_sub_cancel_left]

/-- A line that ends in a return, with a tab at its start and the name right behind a number. -/
theorem resolve_behind_number :
    Mark.resolve ⟨"f", 1, 2, "xr", 1⟩ "p :-\r\n\tq, 0xr,\r\n 'xr'.\r\n" = some ⟨1, 5, 7⟩ ∧
    ∃ cs c, (textLines "p :-\r\n\tq, 0xr,\r\n 'xr'.\r\n".toList)[1]? = some cs ∧
      cs[5]? = some c ∧ (c = '\'' ∨ (cs.take 7).drop 5 = "xr".toList) := by
  have found : Mark.resolve ⟨"f", 1, 2, "xr", 1⟩ "p :-\r\n\tq, 0xr,\r\n 'xr'.\r\n" =
      some ⟨1, 5, 7⟩ := by decide +kernel
  exact ⟨found, (Mark.resolve_spells_name _ _ _ found).2.2⟩

end PrologSource
