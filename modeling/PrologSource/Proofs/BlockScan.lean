import PrologSource.Proofs.BlockPattern
import PrologSource.Proofs.Messages
import PrologSource.Proofs.Lines

/-! Message blocks as a scan from left to right. At each brace the earliest keyword counts, and the
block goes on to the first closing brace; the scan goes on behind it. The blocks of a text are those
of the scan (`Block.isScan_iff`). Main statement: what a report is made of (`Report.ofOutput_scan`).
-/
namespace PrologSource

namespace Keyword
variable {k k' : Keyword} {c d : Char} {u x x' y y' cs : List Char}

structure StandsBehind (k : Keyword) (u cs x y : List Char) : Prop where
  split : cs = x ++ (k.text ++ y)
  opening : '{' ∉ x
  closing : '}' ∉ x
  word : k.IsWordBetween (u ++ x) y

theorem at?_eq_some_iff_standsBehind :
    at? d cs = some k ↔ ∃ y, k.StandsBehind (u ++ [d]) cs [] y := by
  rw [at?_eq_some_iff u]
  constructor
  · rintro ⟨y, split, word⟩
    exact ⟨y, split, List.not_mem_nil, List.not_mem_nil, by rwa [List.append_nil]⟩
  · rintro ⟨y, found⟩
    have word := found.word
    rw [List.append_nil] at word
    exact ⟨y, found.split, word⟩

theorem StandsBehind.not_brace (h : k.StandsBehind u (c :: cs) x y) : ¬ (c = '{' ∨ c = '}') := by
  obtain ⟨split, opening, closing, -⟩ := h
  cases x with
  | nil => exact not_brace_of_front split
  | cons e x =>
    obtain ⟨rfl, -⟩ := List.cons.inj split
    rintro (rfl | rfl)
    · exact opening List.mem_cons_self
    · exact closing List.mem_cons_self

/-- Where no keyword stands at the front of a text, it stands behind the first character. -/
theorem StandsBehind.tail (h : k.StandsBehind (u ++ [d]) (c :: cs) x y)
    (none : at? d (c :: cs) = none) :
    ∃ x', x = c :: x' ∧ k.StandsBehind (u ++ [d] ++ [c]) cs x' y := by
  cases x with
  | nil =>
    rw [at?_eq_some_iff_standsBehind.2 ⟨y, h⟩] at none
    cases none
  | cons e x =>
    obtain ⟨split, opening, closing, word⟩ := h
    obtain ⟨rfl, behind⟩ := List.cons.inj split
    rw [List.mem_cons, not_or] at opening closing
    refine ⟨x, rfl, behind, opening.2, closing.2, ?_⟩
    rwa [List.append_assoc, List.singleton_append]

theorem StandsBehind.cons (h : k.StandsBehind (u ++ [d] ++ [c]) cs x y)
    (brace : ¬ (c = '{' ∨ c = '}')) : k.StandsBehind (u ++ [d]) (c :: cs) (c :: x) y := by
  rw [not_or] at brace
  obtain ⟨split, opening, closing, word⟩ := h
  refine ⟨by rw [split, List.cons_append], ?_, ?_, ?_⟩
  · rw [List.mem_cons, not_or]
    exact ⟨Ne.symm brace.1, opening⟩
  · rw [List.mem_cons, not_or]
    exact ⟨Ne.symm brace.2, closing⟩
  · rwa [List.append_assoc, List.singleton_append] at word

/-- The keyword that is found is the earliest one. -/
theorem earliest_of_first? (h : first? d cs = some k) :
    ∃ x y, k.StandsBehind (u ++ [d]) cs x y ∧
      ∀ k' x' y', StandsBehind k' (u ++ [d]) cs x' y' → x.length ≤ x'.length := by
  induction cs generalizing u d with
  | nil => cases h
  | cons c cs ih =>
    rw [first?] at h
    split at h
    · cases h
    · rename_i brace
      split at h
      · rename_i k' found
        obtain rfl := Option.some.inj h
        obtain ⟨y, here⟩ := (at?_eq_some_iff_standsBehind (u := u)).1 found
        exact ⟨[], y, here, fun _ _ _ _ => Nat.zero_le _⟩
      · rename_i none
        obtain ⟨x, y, behind, earliest⟩ := ih (u := u ++ [d]) h
        refine ⟨c :: x, y, behind.cons brace, ?_⟩
        intro k' x' y' other
        obtain ⟨x', rfl, later⟩ := other.tail none
        exact Nat.succ_le_succ (earliest k' x' y' later)

theorem StandsBehind.exists_first? (h : k.StandsBehind (u ++ [d]) cs x y) :
    ∃ k', first? d cs = some k' := by
  induction cs generalizing u d x with
  | nil =>
    have absent := List.append_eq_nil_iff.1 (List.append_eq_nil_iff.1 h.split.symm).2
    exact absurd absent.1 k.text_ne_nil
  | cons c cs ih =>
    rw [first?, if_neg h.not_brace]
    split
    · rename_i k' _
      exact ⟨k', rfl⟩
    · rename_i none
      obtain ⟨x', -, behind⟩ := h.tail none
      exact ih behind

theorem StandsBehind.eq (h : k.StandsBehind u cs x y) (h' : k'.StandsBehind u cs x' y')
    (same : x.length = x'.length) : k = k' := by
  obtain ⟨rfl, left⟩ := List.append_inj (h.split.symm.trans h'.split) same
  exact eq_of_words left ((isWordEdge_behind _).1 h.word.2) ((isWordEdge_behind _).1 h'.word.2)

end Keyword

namespace Block
variable {b : Block} {k k' : Keyword} {c : Char} {a cs rest u v x x' y y' : List Char}
  {bs bs' : List Block}

/-- A text begins with a brace, and then `x`, a keyword and `y`: no brace stands in `x`, the keyword
is a word of its own, and a closing brace stands somewhere behind it. -/
structure OpensWith (cs x : List Char) (k : Keyword) (y : List Char) : Prop where
  split : cs = '{' :: (x ++ (k.text ++ y))
  opening : '{' ∉ x
  closing : '}' ∉ x
  word : k.IsWordBetween ('{' :: x) y
  closed : '}' ∈ y

def Opens (cs : List Char) : Prop := ∃ x k y, OpensWith cs x k y

/-- The block `b` stands at the front of a text with `rest` behind it: its keyword is the earliest
one, and it goes on to the first closing brace behind that. -/
def IsAtFront (b : Block) (cs rest : List Char) : Prop :=
  ∃ x y, OpensWith cs x b.keyword (y ++ '}' :: rest) ∧ '}' ∉ y ∧
    b.body = x ++ (b.keyword.text ++ y) ∧ ∀ x' k' y', OpensWith cs x' k' y' → x.length ≤ x'.length

/-- The blocks of a text from left to right: the first one that can begin, and the blocks of the
text behind it. -/
inductive IsScan : List Char → List Block → Prop
  | done {cs : List Char} (none : ∀ v, v <:+ cs → ¬ Opens v) : IsScan cs []
  | block {u v rest : List Char} {b : Block} {bs : List Block}
      (first : ∀ v', v' <:+ u ++ v → v.length < v'.length → ¬ Opens v')
      (front : b.IsAtFront v rest) (behind : IsScan rest bs) : IsScan (u ++ v) (b :: bs)

theorem opensWith_iff :
    OpensWith ('{' :: a) x k y ↔ k.StandsBehind ([] ++ ['{']) a x y ∧ '}' ∈ a := by
  constructor
  · rintro ⟨split, opening, closing, word, closed⟩
    obtain ⟨-, rfl⟩ := List.cons.inj split
    exact ⟨⟨rfl, opening, closing, word⟩, by simp [closed]⟩
  · rintro ⟨⟨rfl, opening, closing, word⟩, closed⟩
    refine ⟨rfl, opening, closing, word, ?_⟩
    rw [List.mem_append, List.mem_append] at closed
    exact (closed.resolve_left closing).resolve_left k.brace_not_mem_text.2

/-- A block that can begin is read up to the first closing brace behind a keyword. -/
theorem OpensWith.read?_eq (h : OpensWith ('{' :: a) x k (y ++ '}' :: rest)) (first : '}' ∉ y) :
    read? a = (Keyword.first? '{' a).map fun k' => (⟨k', x ++ (k.text ++ y)⟩, rest) := by
  obtain ⟨-, split⟩ := List.cons.inj h.split
  have body : '}' ∉ x ++ (k.text ++ y) := by
    simp [h.closing, k.brace_not_mem_text.2, first]
  have parts : a = (x ++ (k.text ++ y)) ++ '}' :: rest := by
    rw [split]
    simp only [List.append_assoc]
  rw [parts, read?_close body, Keyword.first?_brace (.inr rfl)]

theorem isAtFront_of_read? (h : read? a = some (b, rest)) : b.IsAtFront ('{' :: a) rest := by
  have spelled : b.body ++ ['}'] ++ rest = a := (List.cons.inj (spelling_of_read? h)).2
  have close : '}' ∈ a := by
    rw [← spelled]
    simp
  have found : Keyword.first? '{' a = some b.keyword := by
    rw [← spelled, List.append_assoc, List.singleton_append, Keyword.first?_brace (.inr rfl)]
    exact (of_read? h).2
  obtain ⟨x, y, stands, earliest⟩ := Keyword.earliest_of_first? (u := []) found
  have opens := opensWith_iff.2 ⟨stands, close⟩
  obtain ⟨y, rest', rfl, first⟩ := List.eq_append_cons_of_mem opens.closed
  have read := opens.read?_eq first
  rw [h, found, Option.map_some] at read
  obtain ⟨body, rfl⟩ := Prod.mk.inj (Option.some.inj read)
  refine ⟨x, y, opens, first, congrArg Block.body body, ?_⟩
  intro x' k' y' other
  exact earliest k' x' y' (opensWith_iff.1 other).1

theorem IsAtFront.exists_read? (h : b.IsAtFront cs rest) :
    ∃ a, cs = '{' :: a ∧ read? a = some (b, rest) := by
  obtain ⟨x, y, opens, first, body, earliest⟩ := h
  obtain rfl := opens.split
  refine ⟨_, rfl, ?_⟩
  obtain ⟨stands, close⟩ := opensWith_iff.1 opens
  obtain ⟨k, found⟩ := stands.exists_first?
  obtain ⟨x', y', stands', earliest'⟩ := Keyword.earliest_of_first? (u := []) found
  -- The earliest keyword of all is also the earliest one with a closing brace behind it.
  have same := Nat.le_antisymm (earliest x' k y' (opensWith_iff.2 ⟨stands', close⟩))
    (earliest' b.keyword x _ stands)
  rw [opens.read?_eq first, found, Option.map_some, ← stands.eq stands' same, ← body]

/-- Nothing is read where no block can begin. -/
theorem read?_eq_none_iff : read? a = none ↔ ¬ Opens ('{' :: a) := by
  constructor
  · rintro none ⟨x, k, y, opens⟩
    obtain ⟨y, rest, rfl, first⟩ := List.eq_append_cons_of_mem opens.closed
    obtain ⟨k', found⟩ := (opensWith_iff.1 opens).1.exists_first?
    rw [opens.read?_eq first, found] at none
    cases none
  · intro closed
    cases found : read? a with
    | none => rfl
    | some r =>
      obtain ⟨x, y, opens, -⟩ := isAtFront_of_read? found
      exact absurd ⟨x, _, _, opens⟩ closed

theorem Opens.exists_cons (h : Opens cs) : ∃ a, cs = '{' :: a := by
  obtain ⟨x, k, y, opens⟩ := h
  exact ⟨_, opens.split⟩

theorem ofText_cons_of_not_opens (h : ¬ Opens (c :: a)) : ofText (c :: a) = ofText a := by
  by_cases brace : c = '{'
  · subst brace
    exact ofText_of_read?_eq_none (read?_eq_none_iff.2 h)
  · exact ofText_cons brace a

theorem ofText_append_of_not_opens (h : ∀ v', v' <:+ u ++ v → v.length < v'.length → ¬ Opens v') :
    ofText (u ++ v) = ofText v := by
  induction u with
  | nil => rfl
  | cons c u ih =>
    have here : ¬ Opens (c :: (u ++ v)) := by
      apply h _ List.suffix_rfl
      simp only [List.cons_append, List.length_cons, List.length_append]
      omega
    rw [List.cons_append, ofText_cons_of_not_opens here]
    exact ih fun v' hv' => h v' (hv'.trans (List.suffix_cons c _))

theorem IsScan.cons (h : IsScan cs bs) (closed : ¬ Opens (c :: cs)) : IsScan (c :: cs) bs := by
  cases h with
  | done none =>
    refine .done fun v hv => ?_
    rcases List.suffix_cons_iff.1 hv with rfl | hv
    · exact closed
    · exact none v hv
  | block first front behind =>
    refine .block (u := c :: _) (fun v' hv' longer => ?_) front behind
    rcases List.suffix_cons_iff.1 hv' with rfl | hv'
    · exact closed
    · exact first v' hv' longer

theorem isScan_ofText (cs : List Char) : IsScan cs (ofText cs) := by
  fun_induction ofText cs with
  | case1 =>
    refine .done fun v hv opens => ?_
    obtain ⟨a, rfl⟩ := opens.exists_cons
    cases List.suffix_nil.1 hv
  | case2 a b rest found ih =>
    refine .block (u := []) (fun v' hv' longer => ?_) (isAtFront_of_read? found) ih
    exact absurd hv'.length_le (Nat.not_le.2 longer)
  | case3 a none ih => exact ih.cons (read?_eq_none_iff.1 none)
  | case4 c a other ih =>
    refine ih.cons fun opens => ?_
    obtain ⟨a', same⟩ := opens.exists_cons
    exact other (List.cons.inj same).1

theorem IsScan.eq_ofText (h : IsScan cs bs) : bs = ofText cs := by
  induction h with
  | @done cs none =>
    have skipped : ofText (cs ++ []) = ofText [] := by
      apply ofText_append_of_not_opens
      intro v hv _
      exact none v (List.append_nil cs ▸ hv)
    rw [← List.append_nil cs, skipped, ofText]
  | block first front behind ih =>
    obtain ⟨a, rfl, found⟩ := front.exists_read?
    rw [ofText_append_of_not_opens first, ofText_of_read? found, ih]

/-- The blocks of a text are those of the scan. -/
theorem isScan_iff : IsScan cs bs ↔ bs = ofText cs := by
  constructor
  · exact IsScan.eq_ofText
  · rintro rfl
    exact isScan_ofText cs

/-- A brace before that of the block, a word that only begins with a keyword, and a brace behind the
keyword. -/
example : ofText "\x7b a \x7b ERRORs In b\x7b c\x7d d \x7d".toList =
    [⟨.inFile, " ERRORs In b\x7b c".toList⟩] := by decide +kernel

theorem IsAtFront.split (h : b.IsAtFront cs rest) : cs = b.spelling ++ rest := by
  obtain ⟨a, rfl, found⟩ := h.exists_read?
  exact (spelling_of_read? found).symm

/-- The blocks of a scan are pieces of the text, one behind the other. -/
theorem IsScan.exists_gaps (h : IsScan cs bs) :
    ∃ (pieces : List (List Char × Block)) (last : List Char), pieces.map Prod.snd = bs ∧
      cs = pieces.flatMap (fun p => p.1 ++ p.2.spelling) ++ last := by
  induction h with
  | @done cs _ => exact ⟨[], cs, rfl, rfl⟩
  | @block u v rest b bs _ front _ ih =>
    obtain ⟨pieces, last, rfl, rfl⟩ := ih
    refine ⟨(u, b) :: pieces, last, rfl, ?_⟩
    rw [front.split, List.flatMap_cons]
    simp only [List.append_assoc]

theorem count_spelling (closed : '}' ∉ b.body) :
    b.spelling.count '}' = 1 ∧ b.spelling.getLast? = some '}' := by
  have none := List.count_eq_zero.2 closed
  refine ⟨by simp [spelling, none], ?_⟩
  rw [spelling, ← List.cons_append, List.getLast?_concat]

theorem infix_of_mem_parts {part : List Char} (h : part ∈ b.parts) : part <:+: '{' :: b.body := by
  unfold parts at h
  split at h
  · cases h
  split at h
  · exact infix_of_mem_textLines h
  · obtain rfl := List.mem_singleton.1 h
    exact (List.suffix_cons '{' _).isInfix

end Block

namespace Diagnostic
variable {part cs : List Char} {s : Severity} {d : Diagnostic}

/-- The text of a message is a piece of what it is read from, without white space at its ends. -/
theorem message_ofText (cs : List Char) :
    (ofText cs).message.toList <:+: cs ∧ IsTrimmed (ofText cs).message.toList := by
  have whole := (trimSpace_isPrefix cs).isInfix.trans (List.dropWhile_suffix isSpace).isInfix
  have trimmed := isTrimmed_trimSpace cs
  rw [ofText]
  split
  · rename_i numbers rest found
    obtain ⟨-, -, split⟩ := of_lineNumbers? found
    have back : rest <:+ trimSpace cs := split ▸ List.suffix_append _ rest
    rw [String.toList_ofList]
    exact ⟨((List.dropWhile_suffix isSpace).trans back).isInfix.trans whole, trimmed.dropWhile back⟩
  · rw [String.toList_ofList]
    exact ⟨whole, trimmed⟩

theorem afterColon_suffix (cs : List Char) : afterColon cs <:+ cs := by
  rw [afterColon]
  split
  · exact (List.tail_suffix _).trans (List.dropWhile_suffix _)
  · exact List.suffix_rfl

theorem message_of_ofPart? (h : ofPart? part = some (s, d)) :
    d.message.toList <:+: part ∧ IsTrimmed d.message.toList := by
  obtain ⟨_, -, same⟩ := Option.map_eq_some_iff.1 h
  obtain ⟨-, rfl⟩ := Prod.mk.inj same
  obtain ⟨piece, trimmed⟩ := message_ofText (afterColon part)
  exact ⟨piece.trans (afterColon_suffix part).isInfix, trimmed⟩

end Diagnostic

namespace Report

/-- A message that is reported is a piece of a block. -/
theorem exists_block_of_message {output : String} {d : Diagnostic}
    (h : d ∈ (ofOutput output).errors ++ (ofOutput output).warnings) :
    ∃ b ∈ Block.ofText output.toList, d.message.toList <:+: b.spelling ∧
      '}' ∉ d.message.toList ∧ IsTrimmed d.message.toList := by
  have found : ∃ s, (s, d) ∈ messages output.toList := by
    simp only [ofOutput, ofMessages, List.mem_append, List.mem_map, List.mem_filter] at h
    rcases h with ⟨⟨s, _⟩, ⟨mem, -⟩, rfl⟩ | ⟨⟨s, _⟩, ⟨mem, -⟩, rfl⟩
    · exact ⟨s, mem⟩
    · exact ⟨s, mem⟩
  obtain ⟨s, mem⟩ := found
  obtain ⟨b, hb, mem⟩ := List.mem_flatMap.1 mem
  obtain ⟨part, hp, read⟩ := List.mem_filterMap.1 mem
  obtain ⟨piece, trimmed⟩ := Diagnostic.message_of_ofPart? read
  have inside := piece.trans (Block.infix_of_mem_parts hp)
  refine ⟨b, hb, inside.trans (List.prefix_append ('{' :: b.body) ['}']).isInfix, ?_, trimmed⟩
  intro close
  rcases List.mem_cons.1 (inside.subset close) with same | close
  · cases same
  · exact (Block.of_mem_ofText hb).2.1 close

/-- A report is made of the blocks that a scan from left to right finds, which are those of the
pattern. They stand one behind the other, each with one closing brace at its end, and each message
is a piece of one of them, without a closing brace and without white space at its ends. -/
theorem ofOutput_scan (output : String) :
    ∃ blocks, Block.ofText output.toList = blocks ∧
      ofOutput output = ofMessages (blocks.flatMap fun b => b.parts.filterMap Diagnostic.ofPart?) ∧
      (∀ bs, Block.IsScan output.toList bs ↔ bs = blocks) ∧
      (Block.pattern.findAll [] output.toList).map (fun ps => (ps.flatten, ps[3]?)) =
        blocks.map (fun b => (b.spelling, some b.keyword.text)) ∧
      (∃ (pieces : List (List Char × Block)) (last : List Char), pieces.map Prod.snd = blocks ∧
        output.toList = pieces.flatMap (fun p => p.1 ++ p.2.spelling) ++ last) ∧
      (∀ b ∈ blocks, b.spelling.count '}' = 1 ∧ b.spelling.getLast? = some '}') ∧
      ∀ d ∈ (ofOutput output).errors ++ (ofOutput output).warnings, ∃ b ∈ blocks,
        d.message.toList <:+: b.spelling ∧ '}' ∉ d.message.toList ∧ IsTrimmed d.message.toList := by
  refine ⟨_, rfl, rfl, fun bs => Block.isScan_iff, Block.findAll_pattern [] _, ?_, ?_, ?_⟩
  · exact (Block.isScan_ofText _).exists_gaps
  · intro b hb
    exact Block.count_spelling (Block.of_mem_ofText hb).2.1
  · intro d hd
    exact exists_block_of_message hd

end Report
end PrologSource
