import PrologSource.Proofs.Reading

/-! A text cut into lexemes with the gaps between them. Main statements: the partition of a text
has gaps that are gaps and lexemes that are read where they stand (`isRead_ofText`), and it is the
only such partition (`ofText_spelling`). -/
namespace PrologSource

/-- Text that may stand between two lexemes, before the text `rest`: layout characters, comments
to the end of a line and closed block comments. -/
inductive IsGap (rest : List Char) : List Char → Prop
  | empty : IsGap rest []
  | layout {c : Char} {gap : List Char} : isLayout c → IsGap rest gap → IsGap rest (c :: gap)
  | lineComment {body gap : List Char} : '\n' ∉ body → (∀ c ∈ (gap ++ rest).head?, c = '\n') →
      IsGap rest gap → IsGap rest ('%' :: (body ++ gap))
  | blockComment {body gap : List Char} : ¬ ['*', '/'] <:+: body ++ ['*'] → IsGap rest gap →
      IsGap rest ('/' :: '*' :: (body ++ '*' :: '/' :: gap))

structure Part where
  gap : List Char
  lexeme : Lexeme
  deriving DecidableEq, Repr

structure Partition where
  parts : List Part
  ending : List Char
  deriving DecidableEq, Repr

def Part.spelling (x : Part) : List Char := x.gap ++ x.lexeme.spelling

namespace Partition

def spelling (P : Partition) : List Char := P.parts.flatMap Part.spelling ++ P.ending

/-- The text before the lexeme of number `j`, its gap included. Behind the last lexeme this is the
whole text. -/
def before (P : Partition) (j : Nat) : List Char :=
  (P.parts.take j).flatMap Part.spelling ++ (P.parts[j]?.map Part.gap).getD P.ending

def after (P : Partition) (j : Nat) : List Char :=
  (P.parts.drop (j + 1)).flatMap Part.spelling ++ P.ending

def push (x : Part) (P : Partition) : Partition := { P with parts := x :: P.parts }

def ofItems (gap : List Char) : List Item → Partition
  | [] => ⟨[], gap⟩
  | i :: rest =>
    match i.lexeme? with
    | some l => (ofItems [] rest).push ⟨gap, l⟩
    | none => ofItems (gap ++ i.spelling) rest

def ofText (cs : List Char) : Partition := ofItems [] (Item.ofText cs)

/-- Each gap is a gap and each lexeme is what is read where it stands; `parts` come before
`ending`. -/
def AreRead (ending : List Char) : List Part → Prop
  | [] => IsGap [] ending
  | x :: rest => IsGap (x.lexeme.spelling ++ (rest.flatMap Part.spelling ++ ending)) x.gap ∧
      Item.Reads (x.lexeme.spelling ++ (rest.flatMap Part.spelling ++ ending)) (.lexeme x.lexeme)
        (rest.flatMap Part.spelling ++ ending) ∧ AreRead ending rest

def IsRead (P : Partition) : Prop := AreRead P.ending P.parts

theorem spelling_push (x : Part) (P : Partition) :
    (P.push x).spelling = x.spelling ++ P.spelling := by
  simp [spelling, push]

theorem isRead_push (x : Part) (P : Partition) : (P.push x).IsRead ↔
    IsGap (x.lexeme.spelling ++ P.spelling) x.gap ∧
      Item.Reads (x.lexeme.spelling ++ P.spelling) (.lexeme x.lexeme) P.spelling ∧ P.IsRead :=
  Iff.rfl

theorem spelling_ofItems (gap : List Char) (items : List Item) :
    (ofItems gap items).spelling = gap ++ items.flatMap Item.spelling := by
  induction items generalizing gap with
  | nil => simp [ofItems, spelling]
  | cons i items ih =>
    cases i with
    | lexeme l =>
      change ((ofItems [] items).push ⟨gap, l⟩).spelling = _
      rw [spelling_push, ih]
      simp [Part.spelling, Item.spelling]
    | _ =>
      rw [ofItems]
      simp [Item.lexeme?, ih]

theorem spelling_ofText (cs : List Char) : (ofText cs).spelling = cs := by
  rw [ofText, spelling_ofItems, List.nil_append, Item.spelling_ofText]

end Partition

theorem IsGap.append {gap more rest : List Char} (first : IsGap (more ++ rest) gap)
    (second : IsGap rest more) : IsGap rest (gap ++ more) := by
  induction first with
  | empty => exact second
  | layout hc _ ih => exact .layout hc ih
  | lineComment inside stop _ ih =>
    rw [List.cons_append, List.append_assoc]
    exact .lineComment inside (by rwa [List.append_assoc]) ih
  | blockComment inside _ ih =>
    rw [List.cons_append, List.cons_append, List.append_assoc]
    exact .blockComment inside ih

theorem Item.Fits.isGap {i : Item} {rest : List Char} (fits : i.Fits rest) (h : i.lexeme? = none) :
    IsGap rest i.spelling := by
  cases i with
  | layout c => exact .layout fits .empty
  | lineComment body =>
    have gap : IsGap rest ('%' :: (body ++ [])) := .lineComment fits.1 fits.2 .empty
    rwa [List.append_nil] at gap
  | blockComment body => exact .blockComment fits .empty
  | lexeme l => cases h

namespace Partition

theorem areRead_ofItems {items : List Item} (run : Item.IsRun items) {gap : List Char}
    (hg : IsGap (items.flatMap Item.spelling) gap) : (ofItems gap items).IsRead := by
  induction items generalizing gap with
  | nil => exact hg
  | cons i items ih =>
    obtain ⟨read, tail⟩ := run.cons
    cases h : i.lexeme? with
    | none =>
      rw [ofItems, h]
      exact ih tail (hg.append (read.fits.isGap h))
    | some l =>
      obtain rfl : i = .lexeme l := by
        cases i <;> cases h
        rfl
      change ((ofItems [] items).push ⟨gap, l⟩).IsRead
      rw [isRead_push, spelling_ofItems, List.nil_append]
      exact ⟨hg, read, ih tail .empty⟩

/-- The partition of a text is as reading makes it. -/
theorem isRead_ofText (cs : List Char) : (ofText cs).IsRead :=
  areRead_ofItems (Item.isRun_ofText cs) .empty

private theorem ofItems_gap {gap rest : List Char} (h : IsGap rest gap) (pre : List Char) :
    ofItems pre (Item.ofText (gap ++ rest)) = ofItems (pre ++ gap) (Item.ofText rest) := by
  induction h generalizing pre with
  | empty => rw [List.nil_append, List.append_nil]
  | @layout c gap hc _ ih =>
    rw [List.cons_append, (Item.reads_layout hc _).ofText_eq]
    change ofItems (pre ++ [c]) _ = _
    rw [ih, List.append_assoc, List.singleton_append]
  | @lineComment body gap inside stop _ ih =>
    rw [List.cons_append, List.append_assoc, (Item.reads_lineComment inside stop).ofText_eq]
    change ofItems (pre ++ '%' :: body) _ = _
    rw [ih, List.append_assoc, List.cons_append]
  | @blockComment body gap inside _ ih =>
    have spelled : '/' :: '*' :: (body ++ '*' :: '/' :: gap) ++ rest =
        '/' :: '*' :: (body ++ '*' :: '/' :: (gap ++ rest)) := by simp
    rw [spelled, (Item.reads_blockComment inside _).ofText_eq]
    change ofItems (pre ++ '/' :: '*' :: (body ++ ['*', '/'])) _ = _
    rw [ih]
    simp

/-- No other partition of a text is as reading makes it. -/
theorem ofText_spelling {P : Partition} (h : P.IsRead) : ofText P.spelling = P := by
  obtain ⟨parts, ending⟩ := P
  induction parts with
  | nil =>
    have gap := ofItems_gap (show IsGap [] ending from h) []
    rw [List.append_nil, List.nil_append] at gap
    rw [ofText, spelling, List.flatMap_nil, List.nil_append, gap, Item.ofText]
    rfl
  | cons x parts ih =>
    obtain ⟨gap, read, rest⟩ := (isRead_push x ⟨parts, ending⟩).1 h
    change ofText (push x ⟨parts, ending⟩).spelling = push x ⟨parts, ending⟩
    rw [spelling_push, Part.spelling, List.append_assoc, ofText, ofItems_gap gap, read.ofText_eq,
      ofItems]
    exact congrArg (push x) (ih rest)

/-- The lexeme that a text begins with is that of its first part. -/
theorem ofText_of_reads {cs rest : List Char} {l : Lexeme} (h : Item.Reads cs (.lexeme l) rest) :
    ofText cs = (ofText rest).push ⟨[], l⟩ := by
  rw [ofText, h.ofText_eq]
  rfl

/-! One part of many. -/

variable {P : Partition} {j : Nat} {x : Part}

theorem before_eq (h : P.parts[j]? = some x) :
    P.before j = (P.parts.take j).flatMap Part.spelling ++ x.gap := by
  rw [before, h]
  rfl

theorem parts_eq (h : P.parts[j]? = some x) :
    P.parts = P.parts.take j ++ x :: P.parts.drop (j + 1) := by
  obtain ⟨inside, rfl⟩ := List.getElem?_eq_some_iff.1 h
  rw [← List.drop_eq_getElem_cons inside, List.take_append_drop]

theorem spelling_eq (h : P.parts[j]? = some x) :
    P.spelling = P.before j ++ (x.lexeme.spelling ++ P.after j) := by
  have all := congrArg (List.flatMap Part.spelling) (parts_eq h)
  rw [spelling, all, before_eq h, after]
  simp [Part.spelling]

theorem eq_nil_of_areRead {ending : List Char} {parts : List Part} (h : AreRead ending parts)
    (nothing : parts.flatMap Part.spelling ++ ending = []) : parts = [] := by
  cases parts with
  | nil => rfl
  | cons x parts =>
    have some := h.2.1.spelling_ne_nil
    simp only [List.flatMap_cons, Part.spelling, List.append_eq_nil_iff] at nothing
    exact absurd nothing.1.1.2 some

private theorem areRead_of_append {ending : List Char} {first rest : List Part}
    (h : AreRead ending (first ++ rest)) : AreRead ending rest := by
  induction first with
  | nil => exact h
  | cons x first ih => exact ih h.2.2

/-- Reading from some part on gives the parts from there on. -/
theorem IsRead.from (h : P.IsRead) (hx : P.parts[j]? = some x) :
    (push x ⟨P.parts.drop (j + 1), P.ending⟩).IsRead := by
  rw [IsRead, parts_eq hx] at h
  exact areRead_of_append h

theorem IsRead.reads (h : P.IsRead) (hx : P.parts[j]? = some x) :
    Item.Reads (x.lexeme.spelling ++ P.after j) (.lexeme x.lexeme) (P.after j) :=
  ((isRead_push x _).1 (h.from hx)).2.1

theorem IsRead.fits (h : P.IsRead) (hx : P.parts[j]? = some x) : x.lexeme.Fits (P.after j) :=
  (h.reads hx).fits

theorem IsRead.ending (h : P.IsRead) : IsGap [] P.ending := by
  rw [IsRead, ← List.append_nil P.parts] at h
  exact areRead_of_append h

end Partition
end PrologSource
