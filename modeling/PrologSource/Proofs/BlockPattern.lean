import PrologSource.Proofs.Blocks
import PrologSource.Proofs.Pattern

namespace PrologSource

namespace Keyword
variable {k k' : Keyword} {d : Char} {u x y y' cs : List Char}

/-- The keyword stands between two texts as a word of its own. -/
def IsWordBetween (k : Keyword) (x y : List Char) : Prop :=
  IsWordEdge x (k.text ++ y) ∧ IsWordEdge (x ++ k.text) y

theorem text_ne_nil (k : Keyword) : k.text ≠ [] := by
  cases k <;> exact List.cons_ne_nil _ _

theorem not_brace_of_front {c : Char} (h : c :: cs = k.text ++ y) : ¬ (c = '{' ∨ c = '}') := by
  obtain ⟨e, tail, spelled⟩ := List.exists_cons_of_ne_nil k.text_ne_nil
  apply not_brace_of_mem_text (k := k)
  rw [spelled] at h ⊢
  rw [(List.cons.inj h).1]
  exact List.mem_cons_self

theorem isWordEdge_behind (x : List Char) :
    IsWordEdge (x ++ k.text) y ↔ ¬ y.head?.any isWordChar := by
  have last : isWordChar (k.text.getLast k.text_ne_nil) :=
    isWordChar_of_mem_text (List.getLast_mem _)
  rw [IsWordEdge, List.getLast?_append_of_ne_nil _ k.text_ne_nil,
    List.getLast?_eq_getLast_of_ne_nil k.text_ne_nil]
  simp [last]

/-- A word of its own has characters of no word on both sides. -/
theorem isWordBetween_iff : k.IsWordBetween (u ++ [d]) y ↔
    ¬ isWordChar d ∧ ¬ y.head?.any isWordChar := by
  obtain ⟨c, tail, spelled⟩ := List.exists_cons_of_ne_nil k.text_ne_nil
  have first : isWordChar c := isWordChar_of_mem_text (k := k) (by simp [spelled])
  have front : IsWordEdge (u ++ [d]) (k.text ++ y) ↔ ¬ isWordChar d := by
    simp [IsWordEdge, spelled, first]
  rw [IsWordBetween, front, isWordEdge_behind]

theorem at?_eq_some_iff (u : List Char) : at? d cs = some k ↔
    ∃ y, cs = k.text ++ y ∧ k.IsWordBetween (u ++ [d]) y := by
  simp only [isWordBetween_iff]
  constructor
  · intro found
    unfold at? at found
    split at found
    · cases found
    · rename_i before
      have fits := List.find?_some found
      rw [Bool.and_eq_true, List.isPrefixOf_iff_prefix] at fits
      obtain ⟨⟨y, rfl⟩, stop⟩ := fits
      rw [List.drop_left] at stop
      exact ⟨y, rfl, before, by simpa using stop⟩
  · rintro ⟨y, rfl, before, stop⟩
    exact at?_text k before stop

end Keyword

namespace Block
variable {before u cs : List Char} {c d : Char}

def closePattern : Pattern := [.few (fun _ => true), .word "\x7d"]

def keywordPattern : Pattern :=
  .wordEdge :: .oneOf (Keyword.all.map Keyword.text) :: .wordEdge :: closePattern

def bodyPattern : Pattern := .few (fun c => c ≠ '{' && c ≠ '}') :: keywordPattern

/-- An opening brace, text without braces, a keyword, and text up to a closing brace. -/
def pattern : Pattern := .word "\x7b" :: bodyPattern

theorem take?_closePattern : closePattern.take? before cs =
    if '}' ∈ cs then some [cs.takeWhile (· ≠ '}'), ['}']] else none := by
  induction cs generalizing before with
  | nil =>
    rw [closePattern, Pattern.take?_few_nil, Pattern.take?_word_eq_none (by simp)]
    rfl
  | cons c cs ih =>
    rw [closePattern, Pattern.take?_few_cons, ← closePattern, ih, if_pos rfl]
    by_cases close : c = '}'
    · subst close
      have here : Pattern.take? [.word "\x7d"] before ('}' :: cs) = some [['}']] :=
        Pattern.take?_word_append "\x7d"
      simp [here]
    · have apart : ¬ "\x7d".toList <+: c :: cs := by simpa using Ne.symm close
      rw [Pattern.take?_word_eq_none apart]
      by_cases more : '}' ∈ cs <;> simp [close, more, Ne.symm close, Pattern.push]

def keywordWay? (before cs : List Char) (k : Keyword) : Option (List (List Char)) :=
  (k.text.isPrefixOf? cs).bind fun rest =>
    (Pattern.take? (.wordEdge :: closePattern) (before ++ k.text) rest).map (k.text :: ·)

theorem take?_keywordPattern_eq : keywordPattern.take? before cs =
    if IsWordEdge before cs then (Keyword.all.findSome? (keywordWay? before cs)).map ([] :: ·)
    else none := by
  rw [keywordPattern, Pattern.take?_wordEdge, Pattern.take?_oneOf, List.findSome?_map]
  rfl

theorem keywordWay?_append {k : Keyword} {y : List Char} (close : '}' ∈ k.text ++ y) :
    keywordWay? before (k.text ++ y) k = if IsWordEdge (before ++ k.text) y then
      some [k.text, [], y.takeWhile (· ≠ '}'), ['}']] else none := by
  have behind := (List.mem_append.1 close).resolve_left k.brace_not_mem_text.2
  rw [keywordWay?, List.isPrefixOf?_eq_some_iff_append_eq.2 rfl, Option.bind_some,
    Pattern.take?_wordEdge, take?_closePattern, if_pos behind]
  split <;> rfl

/-- Only the keyword that is a word of its own can be taken. -/
theorem at?_of_keywordWay? {k : Keyword} (close : '}' ∈ cs) (edge : IsWordEdge (u ++ [d]) cs)
    (some : keywordWay? (u ++ [d]) cs k ≠ none) : Keyword.at? d cs = .some k := by
  obtain ⟨r, found⟩ := Option.ne_none_iff_exists'.1 some
  obtain ⟨y, front, -⟩ := Option.bind_eq_some_iff.1 found
  obtain rfl := List.isPrefixOf?_eq_some_iff_append_eq.1 front
  rw [keywordWay?_append close] at some
  rw [Keyword.at?_eq_some_iff u]
  refine ⟨y, rfl, edge, ?_⟩
  by_contra other
  exact some (if_neg other)

/-- A keyword is taken where it is a word of its own, if a closing brace stands behind it. -/
theorem take?_keywordPattern (close : '}' ∈ cs) : keywordPattern.take? (u ++ [d]) cs =
    (Keyword.at? d cs).map fun k =>
      [[], k.text, [], (cs.drop k.text.length).takeWhile (· ≠ '}'), ['}']] := by
  rw [take?_keywordPattern_eq]
  cases found : Keyword.at? d cs with
  | none =>
    split
    · rename_i edge
      rw [Option.map_none, Option.map_eq_none_iff, List.findSome?_eq_none_iff]
      intro k _
      by_contra some
      rw [at?_of_keywordWay? close edge some] at found
      cases found
    · rfl
  | some k =>
    obtain ⟨y, rfl, edge, edge'⟩ := (Keyword.at?_eq_some_iff u).1 found
    have unique : ∀ k' ∈ Keyword.all, k' ≠ k →
        keywordWay? (u ++ [d]) (k.text ++ y) k' = none := by
      intro k' _ other
      by_contra some
      exact other (Option.some.inj ((at?_of_keywordWay? close edge some).symm.trans found))
    rw [if_pos edge, findSome?_of_unique unique (by cases k <;> decide), keywordWay?_append close,
      if_pos edge', Option.map_some, Option.map_some, List.drop_left]

theorem map_push_bodyPattern :
    ((bodyPattern.take? before cs).map (Pattern.push c)).map (fun ps => (ps.flatten, ps[2]?)) =
      ((bodyPattern.take? before cs).map fun ps => (ps.flatten, ps[2]?)).map
        fun r => (c :: r.1, r.2) := by
  rw [Option.map_map, Option.map_map]
  refine Option.map_congr fun parts fits => ?_
  rw [Function.comp_apply, Function.comp_apply,
    Pattern.flatten_push (Pattern.ne_nil_of_take? fits), Pattern.getElem?_push]

/-- Behind a brace the first keyword before any other brace is taken, and then all text up to the
first closing brace. -/
theorem take?_bodyPattern (close : '}' ∈ cs) :
    (bodyPattern.take? (u ++ [d]) cs).map (fun ps => (ps.flatten, ps[2]?)) =
      (Keyword.first? d cs).map fun k => (cs.takeWhile (· ≠ '}') ++ ['}'], some k.text) := by
  induction cs generalizing u d with
  | nil => cases close
  | cons c cs ih =>
    rw [bodyPattern, Pattern.take?_few_cons, ← bodyPattern, take?_keywordPattern close,
      Keyword.first?]
    cases found : Keyword.at? d (c :: cs) with
    | some k =>
      obtain ⟨y, split, -⟩ := (Keyword.at?_eq_some_iff u).1 found
      have keyword : ∀ c ∈ k.text, decide (c ≠ '}') := by
        intro c hc
        rw [decide_eq_true_eq]
        exact (not_or.1 (Keyword.not_brace_of_mem_text hc)).2
      rw [if_neg (Keyword.not_brace_of_front split), Option.map_some, Option.map_some,
        Option.some_or, Option.map_some, split, List.drop_left,
        List.takeWhile_append_of_pos keyword]
      simp
    | none =>
      by_cases brace : c = '{' ∨ c = '}'
      · rw [if_pos brace]
        rcases brace with rfl | rfl <;> rfl
      · have inner : (c ≠ '{' && c ≠ '}') = true := by simpa using brace
        have behind : '}' ∈ cs :=
          (List.mem_cons.1 close).resolve_left (Ne.symm (not_or.1 brace).2)
        have front : (c :: cs).takeWhile (· ≠ '}') = c :: cs.takeWhile (· ≠ '}') :=
          List.takeWhile_cons_of_pos (by simpa using (not_or.1 brace).2)
        rw [if_neg brace, if_pos inner, Option.map_none, Option.map_none, Option.none_or,
          map_push_bodyPattern, ih behind, Option.map_map, front]
        rfl

/-- No pattern that ends with a closing brace fits where none stands. -/
theorem take?_bodyPattern_eq_none (h : '}' ∉ cs) : bodyPattern.take? before cs = none := by
  have close (u v : List Char) (hv : v <:+ cs) : Pattern.take? [.word "\x7d"] u v = none := by
    apply Pattern.take?_word_eq_none
    intro front
    exact h (hv.subset (front.subset (by decide)))
  have behind (s : PatternStep) {p : Pattern}
      (fails : ∀ u v, v <:+ cs → Pattern.take? p u v = none) (u v : List Char) (hv : v <:+ cs) :
      Pattern.take? (s :: p) u v = none :=
    Pattern.take?_eq_none_of_suffix s fun u' v' hv' => fails u' v' (hv'.trans hv)
  exact behind _ (behind _ (behind _ (behind _ (behind _ close)))) before cs List.suffix_rfl

theorem take?_pattern (before cs : List Char) :
    (pattern.take? before ('{' :: cs)).map (fun ps => (ps.flatten, ps[3]?)) =
      (read? cs).map fun r => (r.1.spelling, some r.1.keyword.text) := by
  have opening : pattern.take? before ('{' :: cs) =
      (bodyPattern.take? (before ++ ['{']) cs).map (['{'] :: ·) :=
    Pattern.take?_word_append "\x7b"
  have parts : (pattern.take? before ('{' :: cs)).map (fun ps => (ps.flatten, ps[3]?)) =
      ((bodyPattern.take? (before ++ ['{']) cs).map fun ps => (ps.flatten, ps[2]?)).map
        fun r => ('{' :: r.1, r.2) := by
    rw [opening, Option.map_map, Option.map_map]
    rfl
  rw [parts]
  by_cases close : '}' ∈ cs
  · obtain ⟨u, w, rfl, first⟩ := List.eq_append_cons_of_mem close
    obtain ⟨run, -⟩ := takeWhile_ne_run (t := '}' :: w) first (by simp)
    rw [take?_bodyPattern close, read?_close first, run, Keyword.first?_brace (.inr rfl),
      Option.map_map, Option.map_map]
    rfl
  · have none : read? cs = none := by
      cases found : read? cs with
      | none => rfl
      | some r =>
        have spelled := (List.cons.inj (spelling_of_read? found)).2
        exact absurd (spelled ▸ by simp) close
    rw [take?_bodyPattern_eq_none close, none]
    rfl

theorem take?_pattern_eq_none (h : ¬ ['{'] <+: cs) : pattern.take? before cs = none :=
  Pattern.take?_word_eq_none h

/-- The blocks of a text are what the pattern takes from it, from left to right. -/
theorem findAll_pattern (before cs : List Char) :
    (pattern.findAll before cs).map (fun ps => (ps.flatten, ps[3]?)) =
      (ofText cs).map fun b => (b.spelling, some b.keyword.text) := by
  fun_induction ofText cs generalizing before with
  | case1 => rw [Pattern.findAll_nil (take?_pattern_eq_none (by simp))]; rfl
  | case2 a b after found ih =>
    have taken := take?_pattern before a
    rw [found, Option.map_some, Option.map_eq_some_iff] at taken
    obtain ⟨parts, fits, same⟩ := taken
    have spelled : parts.flatten = b.spelling := congrArg Prod.fst same
    have rest : ('{' :: a).drop parts.flatten.length = after := by
      rw [spelled, ← spelling_of_read? found, List.drop_left]
    have nonempty : parts.flatten ≠ [] := by
      rw [spelled]
      exact List.cons_ne_nil _ _
    rw [Pattern.findAll_of_take? fits nonempty, rest, List.map_cons, List.map_cons, same, ih]
  | case3 a none ih =>
    have missed := take?_pattern before a
    rw [none, Option.map_none, Option.map_eq_none_iff] at missed
    rw [Pattern.findAll_cons missed, ih]
  | case4 c a other ih =>
    have missed : pattern.take? before (c :: a) = none :=
      take?_pattern_eq_none (by simpa using Ne.symm other)
    rw [Pattern.findAll_cons missed, ih]

end Block
end PrologSource
