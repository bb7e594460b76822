import PrologSource.Proofs.Lookahead.Break
import PrologSource.Text.Pattern

namespace PrologSource

/-- Where only one member of a list can lead to something, it decides. -/
theorem findSome?_of_unique {α β : Type} {f : α → Option β} {e : α} {l : List α}
    (h : ∀ x ∈ l, x ≠ e → f x = none) (member : e ∈ l) : l.findSome? f = f e := by
  cases found : f e with
  | none =>
    rw [List.findSome?_eq_none_iff]
    intro x hx
    by_cases same : x = e
    · rw [same, found]
    · exact h x hx same
  | some r =>
    have some_found : (l.findSome? f).isSome := by
      rw [List.findSome?_isSome_iff]
      exact ⟨e, member, by rw [found]; rfl⟩
    obtain ⟨r', hr⟩ := Option.isSome_iff_exists.1 some_found
    obtain ⟨x, hx, fx⟩ := List.exists_of_findSome?_eq_some hr
    by_cases same : x = e
    · rw [hr, ← fx, same, found]
    · rw [h x hx same] at fx
      cases fx

namespace PatternStep
variable {holds : Char → Bool} {before cs : List Char}

theorem ways_few : (few holds).ways before cs = fronts holds cs := by
  simp [few, ways]

theorem ways_many : (many holds).ways before cs = (fronts holds cs).reverse := by
  simp [many, ways]

theorem getLast?_fronts : (fronts holds cs).getLast? =
    some (cs.takeWhile holds, cs.dropWhile holds) := by
  induction cs with
  | nil => rfl
  | cons c cs ih =>
    rw [fronts]
    by_cases hc : holds c
    · rw [if_pos hc, List.takeWhile_cons_of_pos hc, List.dropWhile_cons_of_pos hc,
        List.getLast?_cons, List.getLast?_map, ih]
      rfl
    · rw [if_neg hc, List.takeWhile_cons_of_neg hc, List.dropWhile_cons_of_neg hc]
      rfl

/-- A front with nothing of the class behind it is the longest. -/
theorem eq_longest {x : List Char × List Char} (h : x ∈ fronts holds cs)
    (stop : ¬ x.2.head?.any holds) : x = (cs.takeWhile holds, cs.dropWhile holds) := by
  obtain ⟨rfl, all⟩ := mem_fronts.1 h
  obtain ⟨run, left⟩ := takeWhile_run all stop
  rw [run, left]

end PatternStep

namespace Pattern
variable {p : Pattern} {holds : Char → Bool} {before cs rest : List Char} {c : Char}

theorem take?_cons (s : PatternStep) : take? (s :: p) before cs =
    (s.ways before cs).findSome? fun x => (take? p (before ++ x.1) x.2).map (x.1 :: ·) := rfl

theorem take?_oneOf (words : List (List Char)) (p : Pattern) :
    take? (.oneOf words :: p) before cs = words.findSome? fun w =>
      (w.isPrefixOf? cs).bind fun rest => (take? p (before ++ w) rest).map (w :: ·) := by
  rw [take?_cons, PatternStep.ways, ← List.head?_filterMap, List.filterMap_filterMap,
    List.head?_filterMap]
  congr 1
  funext w
  cases w.isPrefixOf? cs <;> rfl

theorem take?_word (w : String) (p : Pattern) : take? (.word w :: p) before cs =
    (w.toList.isPrefixOf? cs).bind fun rest =>
      (take? p (before ++ w.toList) rest).map (w.toList :: ·) := by
  rw [PatternStep.word, take?_oneOf, List.findSome?_singleton]

theorem take?_wordEdge (p : Pattern) : take? (.wordEdge :: p) before cs =
    if IsWordEdge before cs then (take? p before cs).map ([] :: ·) else none := by
  rw [take?_cons, PatternStep.ways]
  split
  · rw [List.findSome?_singleton, List.append_nil]
  · rfl

/-- A pattern does not fit where what stands behind its first step fits nowhere further on. -/
theorem take?_eq_none_of_suffix (s : PatternStep)
    (h : ∀ u v, v <:+ cs → take? p u v = none) : take? (s :: p) before cs = none := by
  rw [take?_cons, List.findSome?_eq_none_iff]
  intro x hx
  have behind : x.2 <:+ cs := ⟨x.1, PatternStep.append_of_mem_ways hx⟩
  rw [h _ _ behind, Option.map_none]

theorem ne_nil_of_take? {s : PatternStep} {parts : List (List Char)}
    (h : take? (s :: p) before cs = some parts) : parts ≠ [] := by
  obtain ⟨x, -, found⟩ := List.exists_of_findSome?_eq_some h
  obtain ⟨more, -, rfl⟩ := Option.map_eq_some_iff.1 found
  exact List.cons_ne_nil _ _

theorem take?_word_append (w : String) : take? (.word w :: p) before (w.toList ++ rest) =
    (take? p (before ++ w.toList) rest).map (w.toList :: ·) := by
  rw [take?_word, List.isPrefixOf?_eq_some_iff_append_eq.2 rfl, Option.bind_some]

theorem take?_word_eq_none {w : String} (h : ¬ w.toList <+: cs) :
    take? (.word w :: p) before cs = none := by
  rw [take?_word, Option.bind_eq_none_iff]
  intro rest front
  exact absurd ⟨rest, List.isPrefixOf?_eq_some_iff_append_eq.1 front⟩ h

def push (c : Char) (parts : List (List Char)) : List (List Char) := parts.modifyHead (c :: ·)

theorem flatten_push {parts : List (List Char)} (h : parts ≠ []) :
    (push c parts).flatten = c :: parts.flatten := by
  obtain ⟨x, more, rfl⟩ := List.exists_cons_of_ne_nil h
  rfl

/-- Only what the first step takes becomes longer. -/
theorem getElem?_push (parts : List (List Char)) (n : Nat) :
    (push c parts)[n + 1]? = parts[n + 1]? := by
  cases parts <;> rfl

theorem findSome?_push (l : List (List Char × List Char)) :
    (l.map fun x => (c :: x.1, x.2)).findSome?
        (fun x => (take? p (before ++ x.1) x.2).map (x.1 :: ·)) =
      (l.findSome? fun x => (take? p (before ++ [c] ++ x.1) x.2).map (x.1 :: ·)).map (push c) := by
  rw [List.findSome?_map, List.map_findSome?]
  congr 1
  funext x
  simp only [Function.comp_apply, Option.map_map, List.append_assoc, List.singleton_append]
  rfl

theorem take?_few_nil : take? (.few holds :: p) before [] =
    (take? p before []).map ([] :: ·) := by
  simp [take?_cons, PatternStep.ways_few, PatternStep.fronts]

/-- As little as possible is taken: one more character only if what stands behind does not fit. -/
theorem take?_few_cons : take? (.few holds :: p) before (c :: cs) =
    ((take? p before (c :: cs)).map ([] :: ·)).or
      (if holds c then (take? (.few holds :: p) (before ++ [c]) cs).map (push c) else none) := by
  rw [take?_cons, take?_cons, PatternStep.ways_few, PatternStep.ways_few, PatternStep.fronts,
    List.findSome?_cons, List.append_nil]
  by_cases hc : holds c
  · rw [if_pos hc, if_pos hc, findSome?_push]
    cases take? p before (c :: cs) <;> rfl
  · rw [if_neg hc, if_neg hc]
    cases take? p before (c :: cs) <;> rfl

theorem take?_many_nil : take? (.many holds :: p) before [] =
    (take? p before []).map ([] :: ·) := by
  simp [take?_cons, PatternStep.ways_many, PatternStep.fronts]

/-- As much as possible is taken: nothing only if what stands behind fits nowhere further on. -/
theorem take?_many_cons : take? (.many holds :: p) before (c :: cs) =
    (if holds c then (take? (.many holds :: p) (before ++ [c]) cs).map (push c) else none).or
      ((take? p before (c :: cs)).map ([] :: ·)) := by
  rw [take?_cons, take?_cons, PatternStep.ways_many, PatternStep.ways_many, PatternStep.fronts,
    List.reverse_cons, List.findSome?_append, List.findSome?_singleton, List.append_nil]
  by_cases hc : holds c
  · rw [if_pos hc, if_pos hc, ← List.map_reverse, findSome?_push]
  · rw [if_neg hc, if_neg hc]
    rfl

/-- A run takes all there is if the rest of the pattern cannot begin with what the run consists
of. -/
theorem take?_run_whole (stop : ∀ u d v, holds d → take? p u (d :: v) = none)
    (least : Nat) (most : Option Nat) (greedy : Bool) :
    take? (.run holds least most greedy :: p) before cs =
      if least ≤ (cs.takeWhile holds).length ∧ most.all ((cs.takeWhile holds).length ≤ ·) then
        (take? p (before ++ cs.takeWhile holds) (cs.dropWhile holds)).map (cs.takeWhile holds :: ·)
      else none := by
  have longest : (cs.takeWhile holds, cs.dropWhile holds) ∈ PatternStep.fronts holds cs :=
    List.mem_of_getLast? PatternStep.getLast?_fronts
  have mem (x : List Char × List Char) :
      x ∈ (PatternStep.run holds least most greedy).ways before cs ↔
        x ∈ PatternStep.fronts holds cs ∧ least ≤ x.1.length ∧ most.all (x.1.length ≤ ·) := by
    rw [PatternStep.ways]
    cases greedy <;> simp
  have others (x : List Char × List Char) (hx : x ∈ PatternStep.fronts holds cs)
      (other : x ≠ (cs.takeWhile holds, cs.dropWhile holds)) :
      (take? p (before ++ x.1) x.2).map (x.1 :: ·) = none := by
    have more : x.2.head?.any holds := by
      by_contra stop
      exact other (PatternStep.eq_longest hx stop)
    obtain ⟨u, v⟩ := x
    cases v with
    | nil => cases more
    | cons d v => rw [stop _ d v more, Option.map_none]
  rw [take?_cons]
  split
  · rename_i allowed
    exact findSome?_of_unique (fun x hx => others x ((mem x).1 hx).1)
      ((mem _).2 ⟨longest, allowed⟩)
  · rename_i short
    rw [List.findSome?_eq_none_iff]
    intro x hx
    obtain ⟨front, allowed⟩ := (mem x).1 hx
    refine others x front ?_
    rintro rfl
    exact short allowed

theorem take?_oneOrMore_last : take? [.oneOrMore holds] before cs =
    if cs.takeWhile holds = [] then none else some [cs.takeWhile holds] := by
  rw [take?_cons, PatternStep.oneOrMore, PatternStep.ways, if_pos rfl]
  split
  · rename_i none
    rw [List.findSome?_eq_none_iff]
    rintro ⟨u, v⟩ hx
    obtain ⟨front, allowed⟩ := List.mem_filter.1 (List.mem_reverse.1 hx)
    obtain ⟨rfl, all⟩ := PatternStep.mem_fronts.1 front
    cases u with
    | nil => cases allowed
    | cons d u =>
      rw [List.cons_append, List.takeWhile_cons_of_pos (all d List.mem_cons_self)] at none
      cases none
  · rename_i some
    obtain ⟨shorter, split⟩ := List.getLast?_eq_some_iff.1
      (PatternStep.getLast?_fronts : (PatternStep.fronts holds cs).getLast? = _)
    have allowed : 1 ≤ (cs.takeWhile holds).length := List.length_pos_iff.2 some
    simp [split, take?, allowed]

theorem search?_cons (h : take? p before (c :: cs) = none) :
    search? p before (c :: cs) = search? p (before ++ [c]) cs := by
  rw [search?, h]

theorem findAll_nil (h : take? p before [] = none) : findAll p before [] = [] := by
  rw [findAll]
  split
  · rfl
  · rename_i found
    rw [search?, h] at found
    cases found

theorem findAll_cons (h : take? p before (c :: cs) = none) :
    findAll p before (c :: cs) = findAll p (before ++ [c]) cs := by
  rw [findAll, findAll, search?_cons h]

/-- Behind what is taken the search goes on. -/
theorem findAll_of_take? {parts : List (List Char)} (h : take? p before cs = some parts)
    (some : parts.flatten ≠ []) : findAll p before cs =
      parts :: findAll p (before ++ parts.flatten) (cs.drop parts.flatten.length) := by
  have found : search? p before cs =
      .some ⟨before, parts, cs.drop parts.flatten.length⟩ := by
    cases cs with
    | nil =>
      rw [search?, h, List.drop_nil]
      rfl
    | cons c cs => rw [search?, h]
  rw [findAll]
  split
  · rename_i none
    rw [found] at none
    cases none
  · rename_i other
    obtain rfl := Option.some.inj (found.symm.trans other)
    rw [if_neg some]

end Pattern
end PrologSource
