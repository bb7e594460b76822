import PrologSource.Proofs.Scanner.Progress
import PrologSource.Tokenize

namespace PrologSource
namespace Item
variable {c : Char} {cs pre stars rest : List Char}

def extend (pre : List Char) (parts : List Char × List Char) : List Char × List Char :=
  (pre ++ parts.1, parts.2)

theorem splitAtClose_cons (h : c = '*' → cs.head? ≠ some '/') :
    splitAtClose (c :: cs) = (splitAtClose cs).map (extend [c]) :=
  if_neg fun close => h close.1 close.2

private theorem map_extend (first second : List Char) (o : Option (List Char × List Char)) :
    (o.map (extend second)).map (extend first) = o.map (extend (first ++ second)) := by
  cases o with
  | none => rfl
  | some parts => simp [extend]

/-- Text without a star is passed over. -/
private theorem splitAtClose_append_of_no_star (h : '*' ∉ pre) (rest : List Char) :
    splitAtClose (pre ++ rest) = (splitAtClose rest).map (extend pre) := by
  induction pre with
  | nil => exact Option.map_id'.symm
  | cons c pre ih =>
    obtain ⟨other, inside⟩ := not_or.1 (List.mem_cons.not.1 h)
    rw [List.cons_append, splitAtClose_cons fun same => absurd same.symm other, ih inside,
      map_extend]
    rfl

private theorem splitAtClose_stars (h : ∀ c ∈ stars, c = '*') (rest : List Char)
    (slash : rest.head? ≠ some '/') :
    splitAtClose (stars ++ rest) = (splitAtClose rest).map (extend stars) := by
  induction stars with
  | nil => exact Option.map_id'.symm
  | cons c stars ih =>
    obtain ⟨-, others⟩ := List.forall_mem_cons.1 h
    have next : (stars ++ rest).head? ≠ some '/' := by
      cases stars with
      | nil => exact slash
      | cons d stars => simp [others d List.mem_cons_self]
    rw [List.cons_append, splitAtClose_cons fun _ => next, ih others, map_extend]
    rfl

private theorem star_cons (h : ∀ c ∈ stars, c = '*') : '*' :: stars = stars ++ ['*'] := by
  induction stars with
  | nil => rfl
  | cons c stars ih =>
    obtain ⟨rfl, others⟩ := List.forall_mem_cons.1 h
    rw [List.cons_append, ← ih others]

private theorem splitAtClose_close (h : ∀ c ∈ stars, c = '*') (rest : List Char) :
    splitAtClose ('*' :: (stars ++ '/' :: rest)) = some (stars, rest) := by
  induction stars with
  | nil => exact if_pos ⟨rfl, rfl⟩
  | cons c stars ih =>
    obtain ⟨rfl, others⟩ := List.forall_mem_cons.1 h
    rw [List.cons_append, splitAtClose_cons (by simp), ih others]
    rfl

/-- Only the stars at the end of an open comment matter for how far it is read. -/
private theorem overrun_append (h : c ≠ '*') (pre cs : List Char) :
    (lexeme (.runaway (pre ++ c :: cs))).overrun = (lexeme (.runaway cs)).overrun := by
  have stop : ¬ (c :: pre.reverse).head?.any fun d => decide (d = '*') := by simpa using h
  have run := takeWhile_append_of_head stop cs.reverse
  have reversed : (pre ++ c :: cs).reverse = cs.reverse ++ c :: pre.reverse := by simp
  simp only [overrun, reversed, run]

private theorem overrun_stars (inside : '*' ∉ pre) (stars : List Char) (h : ∀ c ∈ stars, c = '*') :
    (lexeme (.runaway (pre ++ stars))).overrun =
      if stars.length = 0 then 1 else if stars.length = 1 then 0 else 2 := by
  have all : ∀ d ∈ stars.reverse, decide (d = '*') = true := by simpa using h
  have stop : ¬ pre.reverse.head?.any fun d => decide (d = '*') := by
    cases front : pre.reverse.head? with
    | none => exact Bool.false_ne_true
    | some d =>
      have mem : d ∈ pre := List.mem_reverse.1 (List.mem_of_head? front)
      simpa using fun same : d = '*' => inside (same ▸ mem)
  have run := (takeWhile_run all stop).1
  simp only [overrun, List.reverse_append, run, List.length_reverse]
  split <;> simp_all

end Item

namespace Scanner
variable {s : Scanner} {p : Position} {c : Char} {cs : List Char}

theorem skipComment_behind_nil : (s.behind p []).skipComment =
    (s.addToken .solo Token.runawayText.toList).behind
      ((p.advance s.tabWidth none).advance s.tabWidth none) [] := by
  rw [skipComment, skipTo_behind_nil]
  rfl

section turn
variable {pre stars left : List Char} (inside : '*' ∉ pre)
include inside

private theorem skipTo_star (rest : List Char) (stop : ∀ d ∈ rest.head?, d = '*') :
    (s.behind p (c :: (pre ++ rest))).skipTo '*' =
      s.behind (p.walk s.tabWidth (c :: pre)) rest := by
  obtain ⟨run, behind⟩ := takeWhile_ne_run inside stop
  rw [skipTo_behind, run, behind]

private theorem skipComment_no_star : (s.behind p (c :: pre)).skipComment =
    (s.addToken .solo Token.runawayText.toList).behind
      ((p.walk s.tabWidth (c :: pre)).advance s.tabWidth none) [] := by
  have reach := skipTo_star (s := s) (p := p) (c := c) inside [] nofun
  rw [List.append_nil] at reach
  rw [skipComment, reach]
  rfl

private theorem skipComment_star : (s.behind p (c :: (pre ++ ['*']))).skipComment =
    (s.addToken .solo Token.runawayText.toList).behind
      ((p.walk s.tabWidth (c :: pre)).advance s.tabWidth (some '*')) [] := by
  rw [skipComment, skipTo_star inside _ (by simp)]
  rfl

/-- One turn of the search goes over the first run of stars. -/
private theorem skipComment_stars (h : ∀ d ∈ stars, d = '*') (other : left.head? ≠ some '*')
    (more : stars ++ left ≠ []) : (s.behind p (c :: (pre ++ '*' :: (stars ++ left)))).skipComment =
      if left.head? = some '/' then
        (s.behind ((p.walk s.tabWidth (c :: (pre ++ '*' :: stars))).advance s.tabWidth (some '/'))
          left.tail).readAfterLayout
      else (s.behind (p.walk s.tabWidth (c :: (pre ++ '*' :: stars))) left).skipComment := by
  obtain ⟨d, rest, front⟩ := List.exists_cons_of_ne_nil more
  have stop : ¬ left.head?.any fun d => decide (d = '*') := by
    cases left with
    | nil => exact Bool.false_ne_true
    | cons e left => simpa using other
  have run := takeWhile_run (p := fun d => decide (d = '*')) (by simpa using h) stop
  have walked : p.walk s.tabWidth (c :: (pre ++ '*' :: stars)) =
      ((p.walk s.tabWidth (c :: pre)).advance s.tabWidth (some '*')).walk s.tabWidth stars := by
    rw [← List.cons_append, Position.walk_append, Position.walk_cons]
  rw [front] at run ⊢
  rw [skipComment, skipTo_star inside _ (by simp), walked]
  simp only [next_behind, ch_behind, List.head?_cons, skipWhile_behind, run]
  cases left with
  | nil => rfl
  | cons e left =>
    by_cases slash : e = '/'
    · simp [slash]
    · simp [slash]

end turn

/-- Where a comment is left whose search stands before `c :: cs`: behind its end in `cs`, or past
the end of the text. -/
def behindComment (s : Scanner) (p : Position) (c : Char) (cs : List Char) : Scanner :=
  match Item.splitAtClose cs with
  | some (body, rest) =>
    (s.behind (p.walk s.tabWidth (c :: (body ++ ['*', '/']))) rest).readAfterLayout
  | none => (s.addToken .solo Token.runawayText.toList).behind
    ⟨(p.walk s.tabWidth (c :: cs)).line,
      (p.walk s.tabWidth (c :: cs)).column + (Item.lexeme (.runaway cs)).overrun⟩ []

private theorem exists_stars (cs : List Char) : '*' ∉ cs ∨ ∃ pre, '*' ∉ pre ∧
    (cs = pre ++ ['*'] ∨ ∃ stars left, cs = pre ++ '*' :: (stars ++ left) ∧
      (∀ d ∈ stars, d = '*') ∧ left.head? ≠ some '*' ∧ stars ++ left ≠ []) := by
  by_cases star : '*' ∈ cs
  · obtain ⟨pre, rest, rfl, inside⟩ := List.eq_append_cons_of_mem star
    refine .inr ⟨pre, inside, ?_⟩
    by_cases last : rest = []
    · exact .inl (by rw [last])
    · have run := List.takeWhile_append_dropWhile (p := fun d => decide (d = '*')) (l := rest)
      refine .inr ⟨_, _, by rw [run], fun d hd => ?_, fun front => ?_, by rwa [run]⟩
      · simpa using List.mem_takeWhile_imp hd
      · have stop := List.head?_dropWhile_not (fun d => decide (d = '*')) rest
        rw [front] at stop
        cases stop
  · exact .inl star

section shapes
variable {pre stars left : List Char} (inside : '*' ∉ pre)
include inside

private theorem behindComment_no_star : s.behindComment p c pre =
    (s.addToken .solo Token.runawayText.toList).behind
      ((p.walk s.tabWidth (c :: pre)).advance s.tabWidth none) [] := by
  have absent := Item.splitAtClose_append_of_no_star inside []
  have past := Item.overrun_stars inside [] nofun
  rw [List.append_nil] at absent past
  rw [behindComment, absent, past]
  rfl

private theorem behindComment_star : s.behindComment p c (pre ++ ['*']) =
    (s.addToken .solo Token.runawayText.toList).behind
      ((p.walk s.tabWidth (c :: pre)).advance s.tabWidth (some '*')) [] := by
  have past := Item.overrun_stars inside ['*'] (by simp)
  have place : (p.walk s.tabWidth (c :: pre)).advance s.tabWidth (some '*') =
      p.walk s.tabWidth (c :: (pre ++ ['*'])) := by
    rw [← List.cons_append, Position.walk_append]
    rfl
  rw [behindComment, Item.splitAtClose_append_of_no_star inside, past, place]
  simp [Item.splitAtClose]

private theorem behindComment_stars (h : ∀ d ∈ stars, d = '*') (more : stars ≠ []) :
    s.behindComment p c (pre ++ '*' :: stars) =
      (s.behind (p.walk s.tabWidth (c :: (pre ++ '*' :: stars))) []).skipComment := by
  have starred : ∀ d ∈ '*' :: stars, d = '*' := List.forall_mem_cons.2 ⟨rfl, h⟩
  have absent := Item.splitAtClose_stars starred [] nofun
  have several : stars.length ≠ 0 := by simpa using more
  rw [List.append_nil] at absent
  rw [behindComment, Item.splitAtClose_append_of_no_star inside, absent,
    Item.overrun_stars inside _ starred, skipComment_behind_nil]
  simp [Item.splitAtClose, several, Position.advance, Int.add_assoc]

private theorem behindComment_close (h : ∀ d ∈ stars, d = '*') (rest : List Char) :
    s.behindComment p c (pre ++ '*' :: (stars ++ '/' :: rest)) =
      (s.behind ((p.walk s.tabWidth (c :: (pre ++ '*' :: stars))).advance s.tabWidth (some '/'))
        rest).readAfterLayout := by
  have place : (p.walk s.tabWidth (c :: (pre ++ '*' :: stars))).advance s.tabWidth (some '/') =
      p.walk s.tabWidth (c :: (pre ++ stars ++ ['*', '/'])) := by
    rw [Item.star_cons h]
    simp [Position.walk_append]
  rw [behindComment, Item.splitAtClose_append_of_no_star inside, Item.splitAtClose_close h, place]
  rfl

private theorem behindComment_other (h : ∀ d ∈ stars, d = '*') {d : Char} (star : d ≠ '*')
    (slash : d ≠ '/') : s.behindComment p c (pre ++ '*' :: (stars ++ d :: left)) =
      s.behindComment (p.walk s.tabWidth (c :: (pre ++ '*' :: stars))) d left := by
  have starred : ∀ d ∈ '*' :: stars, d = '*' := List.forall_mem_cons.2 ⟨rfl, h⟩
  have split := Item.splitAtClose_stars starred (d :: left) (by simpa using slash)
  have past := Item.overrun_append star (pre ++ '*' :: stars) left
  rw [Item.splitAtClose_cons fun same => absurd same star, List.cons_append] at split
  rw [List.append_assoc, List.cons_append] at past
  rw [behindComment, behindComment, Item.splitAtClose_append_of_no_star inside, split, past]
  cases Item.splitAtClose left with
  | none => simp [Position.walk_append]
  | some found => simp [Position.walk_append, Item.extend]

end shapes

theorem skipComment_behind : (s.behind p (c :: cs)).skipComment = s.behindComment p c cs := by
  -- one turn of the search after the other
  induction size : cs.length using Nat.strongRecOn generalizing p c cs with
  | _ n ih =>
    obtain plain | ⟨pre, inside, rfl | ⟨stars, left, rfl, run, stop, more⟩⟩ := exists_stars cs
    · rw [skipComment_no_star plain, behindComment_no_star plain]
    · rw [skipComment_star inside, behindComment_star inside]
    rw [skipComment_stars inside run stop more]
    cases left with
    | nil =>
      rw [List.append_nil] at more ⊢
      exact (behindComment_stars inside run more).symm
    | cons d left =>
      by_cases slash : d = '/'
      · subst slash
        exact (behindComment_close inside run left).symm
      · have star : d ≠ '*' := by simpa using stop
        have shorter : left.length < n := by
          simp only [List.length_append, List.length_cons] at size
          omega
        simp only [List.head?_cons, Option.some.injEq, slash, ↓reduceIte]
        rw [behindComment_other inside run star slash, ih left.length shorter rfl]

end Scanner
end PrologSource
