import PrologSource.Proofs.MarkChoice
import PrologSource.Proofs.MarkedPlace

namespace PrologSource

theorem Piece.spelling_ne_nil (p : Piece) (mark : Quote) : p.spelling mark ≠ [] := by
  cases p <;> exact List.cons_ne_nil _ _

namespace Quotation
variable {q : Quotation}

/-- Each piece stands for one character at most, and takes at least one. -/
theorem length_content_lt (q : Quotation) : q.content.length < q.spelling.length := by
  have pieces (ps : List Piece) :
      (ps.filterMap (Piece.meaning q.quote)).length ≤
        (ps.flatMap (Piece.spelling q.quote)).length := by
    induction ps with
    | nil => exact Nat.le_refl 0
    | cons p ps ih =>
      have taken := List.length_pos_iff.2 (p.spelling_ne_nil q.quote)
      rw [List.flatMap_cons, List.length_append, List.filterMap_cons]
      split
      · omega
      · rw [List.length_cons]
        omega
  have inside := pieces q.pieces
  rw [content, spelling, body, List.length_cons, List.length_append]
  omega

/-- A newline that is no part of what is meant stands in an escape. -/
theorem exists_escape_of_newline (newline : '\n' ∈ q.spelling) (absent : '\n' ∉ q.content) :
    ∃ e, Piece.escape e ∈ q.pieces ∧ '\n' ∈ e.spelling := by
  have mark : '\n' ≠ q.quote.char := by cases q.quote <;> decide
  have inside : '\n' ∈ q.pieces.flatMap (Piece.spelling q.quote) := by
    rw [spelling, body, List.mem_cons, List.mem_append] at newline
    rcases newline with same | inside | close
    · exact absurd same mark
    · exact inside
    · split at close
      · exact absurd (List.mem_singleton.1 close) mark
      · cases close
  obtain ⟨p, hp, within⟩ := List.mem_flatMap.1 inside
  cases p with
  | raw c =>
    obtain rfl := List.mem_singleton.1 within
    have meant : '\n' ∈ q.content := List.mem_filterMap.2 ⟨.raw '\n', hp, rfl⟩
    exact absurd meant absent
  | doubled =>
    simp only [Piece.spelling, List.mem_cons, List.not_mem_nil, or_false, or_self] at within
    exact absurd within mark
  | escape e =>
    rcases List.mem_cons.1 within with backslash | within
    · exact absurd backslash (by decide)
    · exact ⟨e, hp, within⟩

end Quotation

theorem Lexeme.length_text_le {l : Lexeme} {afterGap : Bool} (atom : l.kind afterGap = .atom) :
    l.text.length ≤ l.spelling.length := by
  cases l with
  | name _ _ | graphic _ _ | soloAtom _ => exact Nat.le_refl _
  | quoted q => exact q.length_content_lt.le
  | openParen => cases afterGap <;> cases atom
  | solo _ | fullStop | number _ | runaway _ => cases atom

/-- A word right before a newline stands at the end of a line. -/
theorem exists_line_end {lines : List (List Char)} (inside : ∀ line ∈ lines, '\n' ∉ line)
    {word a b : List Char} (nonempty : word ≠ []) (whole : '\n' ∉ word)
    (split : List.intercalate ['\n'] lines = a ++ (word ++ '\n' :: b)) :
    ∃ j first, lines[j]? = some (first ++ word) ∧
      (Position.start.walk 1 a).line = j ∧ (Position.start.walk 1 a).column + 1 = first.length := by
  obtain ⟨j, first, last, there, ⟨tail, behind, -⟩, place⟩ :=
    exists_line inside nonempty whole split
  have alone := inside _ (List.mem_of_getElem? there)
  cases last with
  | nil => exact ⟨j, first, by rwa [List.append_nil] at there, place⟩
  | cons d last =>
    obtain ⟨rfl, -⟩ := List.cons.inj behind
    exact absurd (by simp) alone

/-- An atom of joined lines begins on one of them. It ends there as well, or it is in quotes and
takes the rest of the line with the newline. -/
theorem exists_line_of_lexeme {lines : List (List Char)} (inside : ∀ line ∈ lines, '\n' ∉ line)
    {name : String} {t : Token}
    (ht : t ∈ tokenize (String.ofList (List.intercalate ['\n'] lines))) (atom : t.isAtom name) :
    ∃ cs, lines[t.position.line]? = some cs ∧ t.position.column.toNat < cs.length ∧
      (t.position.column.toNat + name.length ≤ cs.length ∨
        ∃ q more rest, Item.Reads (cs.drop t.position.column.toNat ++ '\n' :: (more ++ rest))
            (.lexeme (.quoted q)) rest ∧ q.quote = .single ∧ q.content = name.toList ∧
          q.spelling = cs.drop t.position.column.toNat ++ '\n' :: more) := by
  obtain ⟨a, l, b, split, read, ⟨afterGap, kind⟩, text, place⟩ := exists_lexeme_of_atom ht atom
  rw [String.toList_ofList] at split
  by_cases newline : '\n' ∈ l.spelling
  · obtain ⟨q, rfl, mark⟩ := l.eq_quoted_of_newline read.fits kind newline
    obtain ⟨u, more, spelled, whole⟩ := List.eq_append_cons_of_mem newline
    have nonempty : u ≠ [] := by
      rintro rfl
      have head := (List.cons.inj spelled).1
      rw [mark] at head
      exact absurd head (by decide)
    rw [spelled, List.append_assoc, List.cons_append] at split read
    obtain ⟨j, first, there, line, column⟩ := exists_line_end inside nonempty whole split
    have taken := List.length_pos_iff.2 nonempty
    rw [place, line, column]
    refine ⟨_, there, by simpa using taken, .inr ⟨q, more, b, ?_, mark, text, ?_⟩⟩
    · simpa using read
    · simpa [Lexeme.spelling] using spelled
  · have nonempty : l.spelling ≠ [] := read.spelling_ne_nil
    obtain ⟨j, first, last, there, -, line, column⟩ := exists_line inside nonempty newline split
    have taken := List.length_pos_iff.2 nonempty
    have long := Lexeme.length_text_le kind
    rw [text, String.length_toList] at long
    rw [place, line, column]
    refine ⟨_, there, ?_, .inl ?_⟩
    · simp only [Int.toNat_natCast, List.length_append]
      omega
    · simp only [Int.toNat_natCast, List.length_append]
      omega

namespace Mark

/-- No newline stands in a name on a trace line. -/
theorem newline_not_mem_name {line : String} {m : Mark} (h : ofLine? line = some m) :
    '\n' ∉ m.name.toList := by
  obtain ⟨f, found, read⟩ := Option.bind_eq_some_iff.1 h
  obtain ⟨-, rfl⟩ := ofFields?_eq_some_iff.1 read
  obtain ⟨before, after, chosen⟩ := MarkFields.isChosen_of_find? found
  rw [String.toList_ofList]
  exact chosen.fit.name

/-- At a place on the line `cs` a name begins that is in quotes and takes the rest of the line, and
an escape in it takes the newline behind. -/
def RunsOver (name : String) (place : MarkedPlace) (cs : List Char) : Prop :=
  ∃ q more rest,
    Item.Reads (cs.drop place.column ++ '\n' :: (more ++ rest)) (.lexeme (.quoted q)) rest ∧
    q.quote = .single ∧ q.content = name.toList ∧
    q.spelling = cs.drop place.column ++ '\n' :: more ∧
    ∃ e, Piece.escape e ∈ q.pieces ∧ '\n' ∈ e.spelling

/-- The range of a resolved mark begins on its line and ends there, unless the name is in quotes
and an escape in it takes the newline at the end of the line. -/
theorem resolve_range (line source : String) (m : Mark) (place : MarkedPlace)
    (parsed : ofLine? line = some m) (h : m.resolve source = some place) :
    ∃ cs, (textLines source.toList)[place.line]? = some cs ∧ place.column < cs.length ∧
      (place.endColumn ≤ cs.length ∨ RunsOver m.name place cs) := by
  rw [resolve_eq] at h
  split at h
  · cases h
  · obtain ⟨t, found, rfl⟩ := Option.map_eq_some_iff.1 h
    obtain ⟨mem, atom⟩ := Token.mem_of_nthAtom? found
    have inside : ∀ line ∈ ((textLines source.toList).drop m.firstLine).take
        (m.lastLine - m.firstLine + 1), '\n' ∉ line := by
      intro line hline
      exact newline_not_mem_linesBy (List.mem_of_mem_drop (List.mem_of_mem_take hline))
    obtain ⟨cs, there, begins, ends⟩ := exists_line_of_lexeme inside mem atom
    have within : t.position.line < m.lastLine - m.firstLine + 1 :=
      (List.getElem?_eq_some_iff.1 there).1.trans_le (List.length_take_le ..)
    rw [List.getElem?_take_of_lt within, List.getElem?_drop] at there
    refine ⟨cs, there, begins, ends.imp_right ?_⟩
    rintro ⟨q, more, rest, read, mark, content, spelled⟩
    refine ⟨q, more, rest, read, mark, content, spelled, ?_⟩
    apply q.exists_escape_of_newline
    · rw [spelled]
      simp
    · rw [content]
      exact newline_not_mem_name parsed

/-- A name with a doubled quote mark, on a line that ends in a return. -/
theorem resolve_range_quoted :
    ofLine? "   In f (1-2) it's-1" = some ⟨"f", 0, 1, "it's", 1⟩ ∧
    resolve ⟨"f", 0, 1, "it's", 1⟩ "p :-\r\n q, 'it''s'.\r\n" = some ⟨1, 4, 8⟩ ∧
    ∃ cs, (textLines "p :-\r\n q, 'it''s'.\r\n".toList)[1]? = some cs ∧ 4 < cs.length ∧
      (8 ≤ cs.length ∨ RunsOver "it's" ⟨1, 4, 8⟩ cs) := by
  have parsed : ofLine? "   In f (1-2) it's-1" = some ⟨"f", 0, 1, "it's", 1⟩ := by decide +kernel
  have found : resolve ⟨"f", 0, 1, "it's", 1⟩ "p :-\r\n q, 'it''s'.\r\n" = some ⟨1, 4, 8⟩ := by
    decide +kernel
  exact ⟨parsed, found, resolve_range _ _ _ _ parsed found⟩

/-- A name goes on behind a continuation, and its range ends five columns behind its line. -/
theorem resolve_past_line :
    ofLine? "In f (1-2) abcdefgh-1" = some ⟨"f", 0, 1, "abcdefgh", 1⟩ ∧
    resolve ⟨"f", 0, 1, "abcdefgh", 1⟩ "'a\\\nbcdefgh'" = some ⟨0, 0, 8⟩ ∧
    (textLines "'a\\\nbcdefgh'".toList)[0]?.map List.length = some 3 := by
  decide +kernel

end Mark
end PrologSource
