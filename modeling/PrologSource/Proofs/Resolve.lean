import PrologSource.Mark.Resolve
import PrologSource.Proofs.Lines
import PrologSource.Proofs.Newline

namespace PrologSource

def Mark.covers (m : Mark) (t : Token) : Bool :=
  m.firstLine ≤ t.position.line && t.position.line ≤ m.lastLine

variable {cs a b : List Char} {n k : Nat}

theorem Token.movedTo_zero (t : Token) : t.movedTo ⟨0, 0⟩ = t := by
  obtain ⟨kind, text, line, column⟩ := t
  simp [movedTo, Position.movedTo]

theorem atomsNamed_nil (name : String) : atomsNamed name [] = [] := by
  simp [atomsNamed, tokenize, tokenizeWith_eq_items, Item.ofText, Item.tokens, Token.isAtom]

/-- A newline is free behind a free newline if it is free in the whole text. -/
theorem StandsFrom.isFreeNewline (h : StandsFrom n b cs)
    (first : ∀ a, cs = a ++ '\n' :: b → a.count '\n' + 1 = n → Item.IsFreeNewline a b)
    {c z : List Char} (split : b = c ++ '\n' :: z)
    (whole : ∀ u, cs = u ++ '\n' :: z → u.count '\n' = n + c.count '\n' →
      Item.IsFreeNewline u z) : Item.IsFreeNewline c z := by
  subst split
  rcases h with ⟨zero, rfl⟩ | ⟨a, rfl, count⟩
  · exact whole c rfl (by omega)
  · have line : (a ++ '\n' :: c).count '\n' = n + c.count '\n' := by
      rw [List.count_append, List.count_cons_self]
      omega
    exact (whole (a ++ '\n' :: c) (by simp) line).behind (first a rfl count)

/-- The atoms from some line on. -/
theorem StandsFrom.filter_atomsNamed (h : StandsFrom n b cs)
    (free : ∀ a, cs = a ++ '\n' :: b → a.count '\n' + 1 = n → Item.IsFreeNewline a b)
    (name : String) : (atomsNamed name cs).filter (fun t => n ≤ t.position.line) =
      (atomsNamed name b).map (·.movedTo ⟨n, 0⟩) := by
  rcases h with ⟨rfl, rfl⟩ | ⟨a, rfl, rfl⟩
  · simp [Token.movedTo_zero]
  · rw [atomsNamed_newline (free a rfl rfl), List.filter_append, List.filter_eq_nil_iff.2,
      List.filter_eq_self.2, List.nil_append]
    · intro t ht
      obtain ⟨s, -, rfl⟩ := List.mem_map.1 ht
      simp
    · intro t ht
      have := (place_of_mem_atomsNamed ht).1
      rw [decide_eq_true_eq]
      omega

theorem StandsBefore.filter_atomsNamed (h : StandsBefore k a cs)
    (free : ∀ b, cs = a ++ '\n' :: b → a.count '\n' + 1 = k ∨ b = [] ∧ a.count '\n' + 1 < k →
      Item.IsFreeNewline a b)
    (name : String) : (atomsNamed name cs).filter (fun t => t.position.line < k) =
      atomsNamed name a := by
  rcases h with ⟨rfl, short⟩ | ⟨b, rfl, stop⟩
  · rw [List.filter_eq_self]
    intro t ht
    have := (place_of_mem_atomsNamed ht).1
    rw [decide_eq_true_eq]
    omega
  · rw [atomsNamed_newline (free b rfl stop), List.filter_append, List.filter_eq_self.2]
    · rcases stop with line | ⟨rfl, -⟩
      · rw [List.filter_eq_nil_iff.2, List.append_nil]
        intro t ht
        obtain ⟨s, -, rfl⟩ := List.mem_map.1 ht
        rw [decide_eq_true_eq, Token.line_movedTo, line]
        exact Nat.not_lt.2 (Nat.le_add_right k _)
      · simp [atomsNamed_nil]
    · intro t ht
      have := (place_of_mem_atomsNamed ht).1
      rw [decide_eq_true_eq]
      omega

namespace Mark
variable {m : Mark} {source : String}

/-- The excerpt has the atoms that stand on the lines of the mark. -/
theorem filter_covers (range : m.firstLine ≤ m.lastLine) (noReturn : '\r' ∉ source.toList)
    (first : ∀ u v, source.toList = u ++ '\n' :: v → u.count '\n' + 1 = m.firstLine →
      Item.IsFreeNewline u v)
    (last : ∀ u v, source.toList = u ++ '\n' :: v → m.firstLine ≤ u.count '\n' →
      u.count '\n' = m.lastLine ∨ v = [] ∧ u.count '\n' < m.lastLine → Item.IsFreeNewline u v)
    (name : String) : (atomsNamed name source.toList).filter m.covers =
      (atomsNamed name (m.excerpt source).toList).map (·.movedTo ⟨m.firstLine, 0⟩) := by
  rw [excerpt, excerptLines, String.toList_ofList]
  generalize source.toList = cs at noReturn first last
  obtain ⟨short, none⟩ | ⟨b, start, lines⟩ := drop_textLines noReturn m.firstLine
  · rw [none, List.take_nil, List.intercalate_nil, atomsNamed_nil, List.map_nil,
      List.filter_eq_nil_iff]
    intro t ht
    have := (place_of_mem_atomsNamed ht).1
    rw [covers, Bool.and_eq_true, decide_eq_true_eq, decide_eq_true_eq]
    omega
  · have noReturn_b : '\r' ∉ b := by
      rcases start with ⟨-, rfl⟩ | ⟨a, rfl, -⟩
      · exact noReturn
      · exact fun mem => noReturn (List.mem_append_right _ (List.mem_cons_of_mem _ mem))
    obtain ⟨c, before, excerpt⟩ := intercalate_take_textLines noReturn_b
      (Nat.succ_pos (m.lastLine - m.firstLine))
    rw [lines, excerpt]
    have free_last (z : List Char) (split : b = c ++ '\n' :: z)
        (stop : c.count '\n' + 1 = m.lastLine - m.firstLine + 1 ∨
          z = [] ∧ c.count '\n' + 1 < m.lastLine - m.firstLine + 1) : Item.IsFreeNewline c z := by
      apply start.isFreeNewline (fun a => first a b) split
      intro u whole line
      rcases stop with here | ⟨nothing, past⟩
      · exact last u z whole (by omega) (.inl (by omega))
      · exact last u z whole (by omega) (.inr ⟨nothing, by omega⟩)
    have within (t : Token) : decide ((t.movedTo ⟨m.firstLine, 0⟩).position.line ≤ m.lastLine) =
        decide (t.position.line < m.lastLine - m.firstLine + 1) := by
      change decide (m.firstLine + t.position.line ≤ m.lastLine) = _
      rw [decide_eq_decide]
      omega
    calc (atomsNamed name cs).filter m.covers
        = ((atomsNamed name cs).filter fun t => m.firstLine ≤ t.position.line).filter
            fun t => t.position.line ≤ m.lastLine := by
          rw [List.filter_filter]
          exact List.filter_congr fun t _ => Bool.and_comm _ _
      _ = ((atomsNamed name b).map (·.movedTo ⟨m.firstLine, 0⟩)).filter
            fun t => t.position.line ≤ m.lastLine := by
          rw [start.filter_atomsNamed fun a => first a b]
      _ = ((atomsNamed name b).filter fun t =>
            t.position.line < m.lastLine - m.firstLine + 1).map (·.movedTo ⟨m.firstLine, 0⟩) := by
          rw [List.filter_map]
          exact congrArg _ (List.filter_congr fun t _ => within t)
      _ = (atomsNamed name c).map (·.movedTo ⟨m.firstLine, 0⟩) := by
          rw [before.filter_atomsNamed free_last]

/-- The place of a mark is that of the atom it counts to, among the tokens of the whole source on
its lines. The newlines that cut these lines out must be free: the one before the first line, and
the one behind the last line of the range that the source has. -/
theorem resolve_eq_nthAtom (m : Mark) (source : String) (noReturn : '\r' ∉ source.toList)
    (first : ∀ u v, source.toList = u ++ '\n' :: v → u.count '\n' + 1 = m.firstLine →
      Item.IsFreeNewline u v)
    (last : ∀ u v, source.toList = u ++ '\n' :: v → m.firstLine ≤ u.count '\n' →
      u.count '\n' = m.lastLine ∨ v = [] ∧ u.count '\n' < m.lastLine → Item.IsFreeNewline u v) :
    (m.resolve source).map (fun place =>
        ((⟨place.line, place.column⟩ : Position), (place.endColumn : Int))) =
      (Token.nthAtom? ((tokenize source).filter m.covers) m.name m.occurrence).map fun t =>
        (t.position, t.position.column + (m.name.length : Int)) := by
  rw [resolve_eq]
  split
  · rename_i reversed
    have nothing : (tokenize source).filter m.covers = [] := by
      rw [List.filter_eq_nil_iff]
      intro t _
      rw [covers, Bool.and_eq_true, decide_eq_true_eq, decide_eq_true_eq]
      omega
    rw [nothing]
    cases m.occurrence <;> rfl
  · rename_i range
    cases counted : m.occurrence with
    | zero => rfl
    | succ n =>
      have same := filter_covers (Nat.le_of_not_lt range) noReturn first last m.name
      have swap : ((tokenize source).filter m.covers).filter (·.isAtom m.name) =
          (atomsNamed m.name source.toList).filter m.covers := by
        rw [atomsNamed, String.ofList_toList, List.filter_filter, List.filter_filter]
        exact List.filter_congr fun t _ => Bool.and_comm _ _
      have found : (tokenize (m.excerpt source)).filter (·.isAtom m.name) =
          atomsNamed m.name (m.excerpt source).toList := by
        rw [atomsNamed, String.ofList_toList]
      rw [Token.nthAtom?, Token.nthAtom?, swap, same, found, List.getElem?_map, Option.map_map,
        Option.map_map]
      apply Option.map_congr
      intro t ht
      have column := (place_of_mem_atomsNamed (List.mem_of_getElem? ht)).2
      simpa [placeOf, Token.movedTo, Position.movedTo] using column

/-- Only the second call counts, and its line is the last of the mark. -/
theorem resolve_second_call :
    (resolve ⟨"f", 1, 2, "c", 2⟩ "a.\nb :- c,\n 'c'.\n% c\n").map (fun place =>
        ((⟨place.line, place.column⟩ : Position), (place.endColumn : Int))) =
      some (⟨2, 1⟩, 2) := by
  have law := resolve_eq_nthAtom ⟨"f", 1, 2, "c", 2⟩ "a.\nb :- c,\n 'c'.\n% c\n" (by decide)
    (Item.forall_newline (by decide +kernel)) (Item.forall_newline (by decide +kernel))
  rw [law]
  decide +kernel

/-- A newline at the end of the source must be free as well when the range goes on past it, since
the lines are taken without it. -/
theorem not_resolve_behind_end :
    ¬ ∀ (m : Mark) (source : String), '\r' ∉ source.toList →
      (∀ u v, source.toList = u ++ '\n' :: v → u.count '\n' + 1 = m.firstLine →
        Item.IsFreeNewline u v) →
      (∀ u v, source.toList = u ++ '\n' :: v → u.count '\n' = m.lastLine →
        Item.IsFreeNewline u v) →
      (m.resolve source).map (fun place =>
          ((⟨place.line, place.column⟩ : Position), (place.endColumn : Int))) =
        (Token.nthAtom? ((tokenize source).filter m.covers) m.name m.occurrence).map fun t =>
          (t.position, t.position.column + (m.name.length : Int)) := by
  intro law
  have same := law ⟨"f", 0, 1, "abc", 1⟩ "'abc\n" (by decide)
    (Item.forall_newline (by decide +kernel)) (Item.forall_newline (by decide +kernel))
  have place : resolve ⟨"f", 0, 1, "abc", 1⟩ "'abc\n" = some ⟨0, 0, 3⟩ := by decide +kernel
  have nothing : Token.nthAtom? ((tokenize "'abc\n").filter
      (covers ⟨"f", 0, 1, "abc", 1⟩)) "abc" 1 = none := by decide +kernel
  rw [place, nothing] at same
  cases same

end Mark
end PrologSource
