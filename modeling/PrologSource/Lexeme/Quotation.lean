import PrologSource.Lexeme.Escape

namespace PrologSource

inductive Quote
  | single | double
  deriving DecidableEq, Repr

def Quote.char : Quote → Char
  | .single => '\''
  | .double => '"'

inductive Piece
  /-- A character for itself. -/
  | raw (c : Char)
  /-- The quote mark twice, which stands for one. -/
  | doubled
  /-- A backslash and what follows it. -/
  | escape (e : Escape)
  deriving DecidableEq, Repr

namespace Piece

def spelling (q : Quote) : Piece → List Char
  | .raw c => [c]
  | .doubled => [q.char, q.char]
  | .escape e => '\\' :: e.spelling

def meaning (q : Quote) : Piece → Option Char
  | .raw c => some c
  | .doubled => some q.char
  | .escape e => e.meaning

end Piece

/-- Quoted text; `closed` says whether a closing mark ends it. -/
structure Quotation where
  quote : Quote
  pieces : List Piece
  closed : Bool
  deriving DecidableEq, Repr

namespace Quotation

def body (t : Quotation) : List Char :=
  t.pieces.flatMap (Piece.spelling t.quote) ++ if t.closed then [t.quote.char] else []

def spelling (t : Quotation) : List Char := t.quote.char :: t.body

def content (t : Quotation) : List Char := t.pieces.filterMap (Piece.meaning t.quote)

def push (p : Piece) (t : Quotation) : Quotation := { t with pieces := p :: t.pieces }

@[simp] theorem body_push (p : Piece) (t : Quotation) :
    (t.push p).body = p.spelling t.quote ++ t.body := List.append_assoc ..

theorem content_push (p : Piece) (t : Quotation) :
    (t.push p).content = (p.meaning t.quote).toList ++ t.content := by
  cases stands : p.meaning t.quote with
  | none => exact List.filterMap_cons_none stands
  | some c => exact List.filterMap_cons_some stands

@[simp] theorem quote_push (p : Piece) (t : Quotation) : (t.push p).quote = t.quote := rfl

def read (q : Quote) : List Char → Quotation × List Char
  | [] => (⟨q, [], false⟩, [])
  | c :: rest =>
    if c = q.char then
      match rest with
      | [] => (⟨q, [], true⟩, [])
      | d :: more =>
        if d = q.char then ((read q more).1.push .doubled, (read q more).2)
        else (⟨q, [], true⟩, d :: more)
    else if c = '\\' then
      ((read q (Escape.read rest).2).1.push (.escape (Escape.read rest).1),
        (read q (Escape.read rest).2).2)
    else ((read q rest).1.push (.raw c), (read q rest).2)
termination_by cs => cs.length
decreasing_by
  · simp only [List.length_cons]; omega
  · exact Nat.lt_succ_of_le (Escape.length_read_le _)
  · exact Nat.lt_succ_self _

@[simp] theorem quote_read (q : Quote) (cs : List Char) : (read q cs).1.quote = q := by
  fun_induction read q cs <;> simp_all

theorem body_read (q : Quote) (cs : List Char) : (read q cs).1.body ++ (read q cs).2 = cs := by
  fun_induction read q cs with
  | case1 => rfl
  | case2 => simp_all [body]
  | case3 => simp_all [Piece.spelling]
  | case4 => simp_all [body]
  | case5 rest _ ih => simp_all [Piece.spelling, Escape.spelling_read]
  | case6 => simp_all [Piece.spelling]

theorem spelling_read (q : Quote) (cs : List Char) :
    (read q cs).1.spelling ++ (read q cs).2 = q.char :: cs := by
  rw [spelling, quote_read, List.cons_append, body_read]

theorem length_read_le (q : Quote) (cs : List Char) : (read q cs).2.length ≤ cs.length := by
  have := congrArg List.length (body_read q cs)
  rw [List.length_append] at this
  omega

end Quotation
end PrologSource
