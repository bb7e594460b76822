import PrologSource.Proofs.Placement

namespace PrologSource

/-- The place `p` of a text, once the text stands with its first character at `o`. -/
def Position.movedTo (p o : Position) : Position :=
  ⟨o.line + p.line, if p.line = 0 then o.column + p.column else p.column⟩

def Token.movedTo (t : Token) (o : Position) : Token := { t with position := t.position.movedTo o }

@[simp] theorem Token.line_movedTo (t : Token) (o : Position) :
    (t.movedTo o).position.line = o.line + t.position.line := rfl

namespace Position

theorem advance_movedTo (w : Int) (o p : Position) (c : Option Char) :
    (p.movedTo o).advance w c = (p.advance w c).movedTo o := by
  unfold advance movedTo
  split
  · simp [Nat.add_assoc]
  · by_cases first : p.line = 0 <;> simp [first, Int.add_assoc]
  · by_cases first : p.line = 0 <;> simp [first, Int.add_assoc]

theorem start_movedTo {c : Char} (h : ¬ isLayout c) (w : Int) (p : Position) :
    start.movedTo (p.advance w (some c)) = p := by
  rw [advance_of_not_layout h]
  change (⟨p.line + 0, if (0 : Nat) = 0 then p.column + 1 + -1 else -1⟩ : Position) = p
  rw [if_pos rfl, Int.add_neg_cancel_right]
  rfl

theorem walk_movedTo (w : Int) (o p : Position) (cs : List Char) :
    (p.movedTo o).walk w cs = (p.walk w cs).movedTo o := by
  induction cs generalizing p with
  | nil => rfl
  | cons c cs ih => rw [walk_cons, advance_movedTo, ih, walk_cons]

end Position

theorem Part.tokens_movedTo (w : Int) (o p : Position) (parts : List Part) :
    Part.tokens w (p.movedTo o) parts = (Part.tokens w p parts).map (·.movedTo o) := by
  induction parts generalizing p with
  | nil => rfl
  | cons x parts ih =>
    rw [Part.tokens, Position.walk_movedTo, ih, Part.tokens, List.map_cons]
    simp only [Part.token, Token.movedTo, Position.walk_movedTo, Position.advance_movedTo]

namespace Partition

theorem endPlace_movedTo (w : Int) (o p : Position) (P : Partition) :
    P.endPlace w (p.movedTo o) = (P.endPlace w p).movedTo o := by
  rw [endPlace, endPlace, ← Position.advance_movedTo, Position.walk_movedTo]
  unfold Position.movedTo
  by_cases first : (p.walk w P.spelling).line = 0 <;> simp [first, Int.add_assoc]

theorem tokens_movedTo (w : Int) (o p : Position) (P : Partition) :
    P.tokens w (p.movedTo o) = (P.tokens w p).map (·.movedTo o) := by
  rw [tokens, Part.tokens_movedTo, endPlace_movedTo, tokens, List.map_append]
  rfl

end Partition
end PrologSource
