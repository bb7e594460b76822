import PrologSource.Proofs.Scanner.Comment
import PrologSource.Proofs.Scanner.Number

/-! Reading a whole text. From one item to the next, the reader keeps to the tokens of the items
(`Scanner.leads_dispatch`). Main statements: reading always succeeds (`checkedTokens_eq`), and the
tokens of a text are those of its items (`tokenizeWith_eq_items`). -/
namespace PrologSource
namespace Scanner
variable {all : List Token} {s : Scanner} {p : Position} {afterGap : Bool} {c : Char}
  {cs : List Char}

theorem leads_readSlash (h : Completes all s p afterGap ('/' :: cs)) :
    Leads all (((s.saveAt (p.advance s.tabWidth (some '/'))).behind
      (p.advance s.tabWidth (some '/')) cs).readSlash) := by
  by_cases star : cs.head? = some '*'
  · obtain ⟨tail, rfl⟩ := List.head?_eq_some_iff.1 star
    have read : Item.read '/' ('*' :: tail) = Item.readSymbol '/' ('*' :: tail) := rfl
    rw [Item.readSymbol, if_pos ⟨rfl, rfl⟩, List.tail_cons] at read
    simp only [readSlash, ch_behind, List.head?_cons, ↓reduceIte, skipComment_behind, behindComment]
    cases found : Item.splitAtClose tail with
    | some parts =>
      rw [found] at read
      exact leads_readAfterLayout (h.gap ⟨'/', _, rfl, read⟩ rfl)
    | none =>
      rw [found] at read
      exact (h.token ⟨'/', _, rfl, read⟩).leads
  · simp only [readSlash, ch_behind, star, ↓reduceIte]
    exact leads_readSymbol h rfl (fun _ => star) fun same => absurd same (by decide)

private theorem reads_rest_of_line (cs : List Char) : Item.Reads ('%' :: cs)
    (.lineComment (cs.takeWhile (· ≠ '\n'))) (cs.dropWhile (· ≠ '\n')) := ⟨'%', cs, rfl, rfl⟩

private theorem reads_solo (h : c ∈ solos) (cs : List Char) :
    Item.Reads (c :: cs) (.lexeme (.solo c)) cs := by
  simp only [solos, List.mem_cons, List.not_mem_nil, or_false] at h
  rcases h with rfl | rfl | rfl | rfl | rfl | rfl | rfl <;> exact ⟨_, cs, rfl, rfl⟩

theorem leads_readPoint (h : Completes all s p afterGap ('.' :: cs)) :
    Leads all (((s.saveAt (p.advance s.tabWidth (some '.'))).behind
      (p.advance s.tabWidth (some '.')) cs).readPoint) := by
  have stop (ends : Item.endsClause cs) := h.lexeme (Item.reads_fullStop ends) rfl
  cases cs with
  | nil => exact (stop rfl).leads
  | cons d cs =>
    simp only [readPoint, ch_behind, List.head?_cons]
    by_cases percent : d = '%'
    · subst percent
      have gap := (stop rfl).gap (reads_rest_of_line cs) rfl
      simp only [↓reduceIte, addToken_behind, skipLine, skipTo_behind]
      -- layout is left to the next turn, which begins at the newline and not at a parenthesis
      refine ⟨_, _, true, _, rfl, fun _ paren => ?_, gap⟩
      have newline := List.head?_dropWhile_not (· ≠ '\n') cs
      rw [paren] at newline
      cases newline
    by_cases layout : isLayout d
    · simp only [percent, layout, ↓reduceIte]
      exact (stop (by simp [Item.endsClause, layout])).leads
    · simp only [percent, layout, ↓reduceIte]
      refine leads_readSymbol h rfl (fun same => absurd same (by decide)) fun _ => ?_
      simp [Item.endsClause, layout, percent]

private theorem readAfterLayout_layout (layout : isLayout c) :
    (s.behind p (c :: cs)).readAfterLayout =
      (s.behind (p.advance s.tabWidth (some c)) cs).readAfterLayout := by
  simp only [readAfterLayout, skipWhile_behind, List.takeWhile_cons_of_pos layout,
    List.dropWhile_cons_of_pos layout, Position.walk_cons]

theorem leads_readMark (h : Completes all s p afterGap (c :: cs))
    (paren : afterGap = true → c ≠ '(') (front : CharClass.ofChar c = .punctuation) :
    ∃ t, ((s.saveAt (p.advance s.tabWidth (some c))).behind p (c :: cs)).readMark c = .ok t ∧
      Leads all t := by
  rw [readMark]
  split
  · rename_i mark
    have read : Item.Reads (c :: cs) (.lexeme (.soloAtom c)) cs :=
      ⟨c, cs, rfl, by rcases mark with rfl | rfl <;> rfl⟩
    exact ⟨_, rfl, (h.lexeme read rfl).leads⟩
  split
  · rename_i percent
    subst percent
    refine ⟨_, rfl, ?_⟩
    rw [skipLine, skipTo_behind]
    exact leads_readAfterLayout (h.gap (reads_rest_of_line cs) rfl)
  split
  · rename_i mark
    subst mark
    cases afterGap with
    | true => exact absurd rfl (paren rfl)
    | false => exact ⟨_, rfl, (h.lexeme ⟨_, cs, rfl, rfl⟩ rfl).leads⟩
  split
  · rename_i mark
    exact ⟨_, rfl, (h.lexeme (reads_solo mark cs) rfl).leads⟩
  split
  · rename_i mark
    subst mark
    exact ⟨_, rfl, leads_addQuoted (q := .double) h⟩
  split
  · rename_i mark
    subst mark
    exact ⟨_, rfl, leads_addQuoted (q := .single) h⟩
  · -- these are all the punctuation there is
    have mark := Item.mem_marks_of_class front
    simp only [CharClass.marks, solos, List.mem_cons, List.not_mem_nil, or_false] at *
    grind

/-- Reading from a character on never fails. -/
theorem leads_dispatch (h : Completes all s p afterGap (c :: cs))
    (paren : afterGap = true → c ≠ '(') :
    ∃ t, ((s.saveAt (p.advance s.tabWidth (some c))).behind p (c :: cs)).dispatch c = .ok t ∧
      Leads all t := by
  rw [dispatch]
  split
  · rename_i front
    have layout : isLayout c := by simp [isLayout, front]
    refine ⟨_, rfl, ?_⟩
    rw [readAfterLayout_layout layout]
    exact leads_readAfterLayout (h.gap (Item.reads_layout layout cs) rfl)
  · rename_i front
    have name := leads_readName h (by simp [isLetter, front])
    simp only [isUpper, front] at name
    exact ⟨_, rfl, name⟩
  · rename_i front
    have name := leads_readName h (by simp [isLetter, front])
    simp only [isUpper, front] at name
    exact ⟨_, rfl, name⟩
  · rename_i front
    exact leads_readNumber h (by simp [isDigit, front])
  · rename_i front
    by_cases slash : c = '/'
    · subst slash
      exact ⟨_, rfl, leads_readSlash h⟩
    by_cases point : c = '.'
    · subst point
      exact ⟨_, rfl, leads_readPoint h⟩
    rw [if_neg slash, if_neg point]
    exact ⟨_, rfl, leads_readSymbol h (by simp [isSymbol, front]) (fun same => absurd same slash)
      fun same => absurd same point⟩
  · rename_i front
    exact leads_readMark h paren front

private theorem readTokens_of_dispatch {t : Scanner} (front : s.ch = some c)
    (step : s.save.dispatch c = .ok t) : s.readTokens = t.readTokens := by
  rw [readTokens]
  split
  · rename_i none
    rw [front] at none
    cases none
  · rename_i d same
    obtain rfl := Option.some.inj (same.symm.trans front)
    split
    · rename_i bad
      rw [step] at bad
      cases bad
    · rename_i u good
      rw [step] at good
      cases good
      rfl

/-- To the end of the text the tokens are all. -/
theorem readTokens_of_leads (h : Leads all s) : ∃ t, s.readTokens = .ok t ∧
    t.tokens.toList ++ [⟨.endOfFile, "", t.saved⟩] = all := by
  induction size : s.text.length using Nat.strongRecOn generalizing s with
  | _ n ih =>
    obtain ⟨r, p, afterGap, cs, rfl, paren, done⟩ := h
    cases cs with
    | nil =>
      rw [Completes, Item.ofText] at done
      rw [readTokens]
      exact ⟨_, rfl, done⟩
    | cons c cs =>
      obtain ⟨t, step, leads⟩ := leads_dispatch done fun gap => by simpa using paren gap
      have shorter := length_dispatch_lt (s := (r.behind p (c :: cs)).save) rfl step
      obtain ⟨u, run, whole⟩ := ih t.text.length (size ▸ shorter) leads rfl
      exact ⟨u, (readTokens_of_dispatch rfl step).trans run, whole⟩

end Scanner

theorem checkedTokens_eq_items (w : Int) (text : String) :
    checkedTokens w text = .ok (Item.tokens w .start false (Item.ofText text.toList)) := by
  have start : Scanner.Completes (Item.tokens w .start false (Item.ofText text.toList))
      ⟨[], .start, .start, w, #[]⟩ .start false text.toList := List.nil_append _
  obtain ⟨t, run, whole⟩ := Scanner.readTokens_of_leads start.leads
  rw [checkedTokens, Scanner.start_eq_behind, run, ← whole]
  simp [Except.map, Scanner.addToken]

theorem tokenizeWith_eq_items (w : Int) (text : String) :
    tokenizeWith w text = Item.tokens w .start false (Item.ofText text.toList) := by
  rw [tokenizeWith, checkedTokens_eq_items]

/-- Every text has its tokens. -/
theorem checkedTokens_eq (w : Int) (text : String) :
    checkedTokens w text = .ok (tokenizeWith w text) := by
  rw [tokenizeWith_eq_items, checkedTokens_eq_items]

end PrologSource
