import PrologSource.Proofs.Placement

/-! Names and symbols are as long as can be, and a point is a token of its own exactly where it ends
a clause. What a lexeme is shows in its token and its first character (`Lexeme.eq_name` and what
follows it), and the text before a lexeme ends with the last one before (`Partition.exists_between`).
Main statement: `tokenizeWith_maximalMunch`. -/
namespace PrologSource
variable {l : Lexeme} {cs rest : List Char} {afterGap : Bool}

/-- How far a token with this lexeme goes before `rest`. -/
structure Token.IsMaximal (t : Token) (lexeme rest : List Char) : Prop where
  name : t.kind = .var ∨ t.kind = .atom ∧ lexeme.head?.any isLetter →
    (∀ c ∈ lexeme, isAlphanumeric c) ∧ ¬ rest.head?.any isAlphanumeric
  graphic : t.kind = .atom → lexeme.head?.any isSymbol →
    (∀ c ∈ lexeme, isSymbol c) ∧ ¬ rest.head?.any isSymbol ∧ ¬ ['/', '*'] <+: lexeme ∧
      ¬ (lexeme = ['.'] ∧ ∀ c ∈ rest.head?, isLayout c ∨ c = '%')
  fullStop : t.kind = .solo ∧ t.text = "." ↔
    lexeme = ['.'] ∧ ∀ c ∈ rest.head?, isLayout c ∨ c = '%'

theorem Item.endsClause_iff (cs : List Char) :
    endsClause cs ↔ ∀ c ∈ cs.head?, isLayout c ∨ c = '%' := by
  cases cs <;> simp [endsClause]

theorem isAlphanumeric_of_isLetter {c : Char} (h : isLetter c) : isAlphanumeric c := by
  simp [isAlphanumeric, h]

theorem not_isLetter_of_isSymbol {c : Char} (h : isSymbol c) : ¬ isLetter c := by
  have front : CharClass.ofChar c = .symbol := by simpa [isSymbol] using h
  simp [isLetter, front]

namespace Lexeme

/-- Variables are names, and so are the atoms that begin with a letter. -/
theorem eq_name (fits : l.Fits rest) (h : l.kind afterGap = .var ∨
    l.kind afterGap = .atom ∧ l.spelling.head?.any isLetter) :
    ∃ head tail, l = .name head tail := by
  cases l with
  | name head tail => exact ⟨head, tail, rfl⟩
  | graphic head tail =>
    rcases h with var | ⟨-, letter⟩
    · cases var
    · exact absurd letter (not_isLetter_of_isSymbol fits.1)
  | soloAtom c =>
    rcases h with var | ⟨-, letter⟩
    · cases var
    · rcases fits with rfl | rfl <;> exact absurd letter (by decide)
  | quoted q =>
    obtain ⟨mark, pieces, closed⟩ := q
    cases mark with
    | single =>
      rcases h with var | ⟨-, letter⟩
      · cases var
      · exact absurd letter (by decide : ¬ isLetter '\'')
    | double => rcases h with var | ⟨atom, -⟩ <;> contradiction
  | openParen =>
    cases afterGap <;> rcases h with var | ⟨atom, -⟩ <;> contradiction
  | solo _ | fullStop | number _ | runaway _ =>
    rcases h with var | ⟨atom, -⟩ <;> contradiction

/-- The atoms that begin with a symbol character are graphic. -/
theorem eq_graphic (fits : l.Fits rest) (atom : l.kind afterGap = .atom)
    (symbol : l.spelling.head?.any isSymbol) : ∃ head tail, l = .graphic head tail := by
  cases l with
  | graphic head tail => exact ⟨head, tail, rfl⟩
  | name head tail => exact absurd fits.1 (not_isLetter_of_isSymbol symbol)
  | soloAtom c => rcases fits with rfl | rfl <;> exact absurd symbol (by decide)
  | quoted q =>
    obtain ⟨mark, pieces, closed⟩ := q
    cases mark with
    | single => exact absurd symbol (by decide : ¬ isSymbol '\'')
    | double => cases atom
  | openParen => cases afterGap <;> cases atom
  | solo _ | fullStop | number _ | runaway _ => cases atom

theorem eq_fullStop_of_kind (fits : l.Fits rest) (solo : l.kind afterGap = .solo)
    (point : l.text = ['.']) : l = .fullStop := by
  cases l with
  | fullStop => rfl
  | solo c =>
    obtain ⟨rfl, -⟩ := List.cons.inj point
    exact absurd fits (by simp [Fits])
  | name head tail => cases u : isUpper head <;> simp [kind, u] at solo
  | quoted q => cases d : q.quote <;> simp [kind, d] at solo
  | openParen | runaway _ => cases point
  | graphic _ _ | soloAtom _ | number _ => cases solo

/-- A point alone that ends a clause is read as a full stop. -/
theorem eq_fullStop_of_spelling (read : Item.Reads cs (.lexeme l) rest) (point : l.spelling = ['.'])
    (clause : Item.endsClause rest) : l = .fullStop := by
  have front : cs = '.' :: rest := by
    rw [← read.spelling_append, Item.spelling, point]
    rfl
  rw [front] at read
  exact Item.lexeme.inj (read.eq (Item.reads_fullStop clause))

/-- Whatever the lexeme, its token goes as far as it can. -/
theorem isMaximal (read : Item.Reads cs (.lexeme l) rest) (afterGap : Bool) (p : Position) :
    Token.IsMaximal ⟨l.kind afterGap, String.ofList l.text, p⟩ l.spelling rest where
  name h := by
    obtain ⟨head, tail, rfl⟩ := eq_name read.fits h
    obtain ⟨letter, all, stop⟩ := read.fits
    exact ⟨List.forall_mem_cons.2 ⟨isAlphanumeric_of_isLetter letter, all⟩, stop⟩
  graphic atom symbol := by
    obtain ⟨head, tail, rfl⟩ := eq_graphic read.fits atom symbol
    obtain ⟨front, all, stop, comment, clause⟩ := read.fits
    refine ⟨List.forall_mem_cons.2 ⟨front, all⟩, stop, comment, ?_⟩
    rintro ⟨point, ends⟩
    obtain ⟨rfl, rfl⟩ := List.cons.inj point
    exact clause ⟨rfl, rfl, (Item.endsClause_iff rest).2 ends⟩
  fullStop := by
    rw [← Item.endsClause_iff]
    constructor
    · rintro ⟨solo, point⟩
      have chars := congrArg String.toList point
      rw [String.toList_ofList] at chars
      obtain rfl := eq_fullStop_of_kind read.fits solo chars
      exact ⟨rfl, read.fits⟩
    · rintro ⟨point, clause⟩
      rw [eq_fullStop_of_spelling read point clause]
      exact ⟨rfl, rfl⟩

end Lexeme

namespace Partition
variable {P : Partition} {i j : Nat} {x y : Part}

/-- Of two lexemes the later one stands behind the whole of the earlier one. -/
theorem exists_between (hi : P.parts[i]? = some y) (hj : P.parts[j]? = some x) (earlier : i < j) :
    ∃ between, P.before j = P.before i ++ (y.lexeme.spelling ++ between) ∧
      P.after i = between ++ (x.lexeme.spelling ++ P.after j) := by
  let later : Partition := ⟨P.parts.drop (i + 1), P.ending⟩
  obtain ⟨n, rfl⟩ := Nat.exists_eq_add_of_lt earlier
  have index : i + n + 1 = i + 1 + n := by omega
  have there : later.parts[n]? = some x := by rw [← hj, index, List.getElem?_drop]
  have behind : later.after n = P.after (i + n + 1) := by
    rw [after, after, List.drop_drop, index]
    rfl
  have split : P.after i = later.before n ++ (x.lexeme.spelling ++ P.after (i + n + 1)) := by
    rw [← behind]
    exact spelling_eq there
  refine ⟨later.before n, ?_, split⟩
  have all := (spelling_eq hj).symm.trans (spelling_eq hi)
  rw [split, ← List.append_assoc y.lexeme.spelling, ← List.append_assoc (P.before i)] at all
  exact List.append_cancel_right all

end Partition

/-- A name and a symbol take in all that belongs to them, a symbol opens no comment, and a point is a
token of its own exactly where it stands alone before layout, a line comment or the end of the
text. What stands right before such a point belongs to no symbol. -/
theorem tokenizeWith_maximalMunch (w : Int) (text : String) :
    let P := Partition.ofText text.toList
    let tokens := tokenizeWith w text
    tokens.length = P.parts.length + 1 ∧
    ∀ j x, P.parts[j]? = some x →
      text.toList = P.before j ++ (x.lexeme.spelling ++ P.after j) ∧
      ∃ t, tokens[j]? = some t ∧ t.IsMaximal x.lexeme.spelling (P.after j) ∧
        (t.kind = .solo → t.text = "." → ∀ i y u, P.parts[i]? = some y → tokens[i]? = some u →
          u.kind = .atom → y.lexeme.spelling.head?.any isSymbol →
          ∀ m, (P.before i).length ≤ m → m < (P.before i).length + y.lexeme.spelling.length →
            m + 1 ≠ (P.before j).length) := by
  intro P tokens
  have isRead : P.IsRead := Partition.isRead_ofText text.toList
  have same : tokens = P.tokens w .start := tokenizeWith_eq w text
  refine ⟨length_tokenizeWith w text, ?_⟩
  intro j x hx
  have maximal := Lexeme.isMaximal (isRead.reads hx) (x.gap ≠ [])
    ((Position.start.walk w (P.before j)).advance w x.lexeme.spelling.head?)
  refine ⟨by rw [← Partition.spelling_eq hx, Partition.spelling_ofText], _,
    by rw [same, Partition.tokens_getElem? hx], maximal, ?_⟩
  intro solo point i y u hy hu atom symbol m low high right
  rw [same, Partition.tokens_getElem? hy] at hu
  obtain rfl := Option.some.inj hu
  obtain ⟨alone, -⟩ := maximal.fullStop.1 ⟨solo, point⟩
  have stop := ((Lexeme.isMaximal (isRead.reads hy) _ _).graphic atom symbol).2.1
  rcases Nat.lt_trichotomy i j with earlier | rfl | later
  · obtain ⟨between, front, behind⟩ := Partition.exists_between hy hx earlier
    have none : between = [] := by
      have lengths := congrArg List.length front
      rw [List.length_append, List.length_append] at lengths
      exact List.length_eq_zero_iff.1 (by omega)
    rw [behind, none, alone] at stop
    exact stop (by decide : isSymbol '.')
  · omega
  · obtain ⟨between, front, -⟩ := Partition.exists_between hx hy later
    have lengths := congrArg List.length front
    rw [List.length_append] at lengths
    omega

/-- Behind numbers that leave an exponent or a base to what follows, a symbol takes in the point
behind its sign, and a point before a line comment stands alone. -/
example : (tokenizeWith 1 "1.0e+. 0xr.% c\n.=").map (fun t => (t.kind, t.text)) =
    [(.number, "1.0"), (.atom, "e"), (.atom, "+."), (.number, "0"), (.atom, "xr"), (.solo, "."),
      (.atom, ".="), (.endOfFile, "")] := by
  decide +kernel

end PrologSource
