import PrologSource.Proofs.MarkPattern

/-! The choice among marks on one line. A line can be split into a mark in many ways: the earliest
`In ` counts, then the longest file and the shortest name, and the last number is as long as it can
be. Main statement: this choice is the mark that is read (`Mark.ofLine?_choice`). -/
namespace PrologSource
namespace MarkFields
variable {f g : MarkFields} {cs before rest after file name digits first last : List Char}

structure IsFit (f : MarkFields) : Prop where
  file : '\n' ∉ f.file
  first : IsDecimal f.first
  last : IsDecimal f.last
  name : '\n' ∉ f.name
  occurrence : IsDecimal f.occurrence

/-- An `In ` with the parts of a mark behind it stands in a text, between `before` and `after`. -/
structure StandsIn (cs before : List Char) (f : MarkFields) (after : List Char) : Prop where
  split : cs = before ++ ("In ".toList ++ (f.spelling ++ after))
  fit : f.IsFit

/-- Of all marks in a text, the one at the earliest `In `, with the longest file for it, with the
shortest name for that, and with all digits of the last number. -/
structure IsChosen (cs before : List Char) (f : MarkFields) (after : List Char) : Prop
    extends StandsIn cs before f after where
  earliest : ∀ before' f' after', StandsIn cs before' f' after' → before.length ≤ before'.length
  longestFile : ∀ f' after', StandsIn cs before f' after' → f'.file.length ≤ f.file.length
  shortestName : ∀ f' after', StandsIn cs before f' after' → f'.file = f.file →
    f.name.length ≤ f'.name.length
  wholeNumber : ¬ after.head?.any isDigit

/-! The name. -/

theorem of_name? (h : name? cs = some (name, digits)) :
    '\n' ∉ name ∧ IsDecimal digits ∧
      ∃ rest, cs = name ++ '-' :: (digits ++ rest) ∧ ¬ rest.head?.any isDigit := by
  induction cs generalizing name with
  | nil => cases h
  | cons c cs ih =>
    rw [name?] at h
    split at h
    · rename_i dash
      cases h
      refine ⟨List.not_mem_nil, ⟨dash.2, fun d hd => List.mem_takeWhile_imp hd⟩,
        cs.dropWhile isDigit, ?_, head_dropWhile_not isDigit cs⟩
      rw [dash.1, List.takeWhile_append_dropWhile, List.nil_append]
    split at h
    · cases h
    · rename_i newline
      obtain ⟨⟨name', digits'⟩, found, same⟩ := Option.map_eq_some_iff.1 h
      cases same
      obtain ⟨line, decimal, rest, rfl, stop⟩ := ih found
      refine ⟨?_, decimal, rest, rfl, stop⟩
      rw [List.mem_cons, not_or]
      exact ⟨Ne.symm newline, line⟩

/-- A name that fits is found, or else a shorter one. -/
theorem exists_name? (line : '\n' ∉ name) (hd : IsDecimal digits) (rest : List Char) :
    ∃ found, name? (name ++ '-' :: (digits ++ rest)) = some found ∧
      found.1.length ≤ name.length := by
  induction name with
  | nil =>
    have some : (digits ++ rest).takeWhile isDigit ≠ [] := by
      obtain ⟨d, digits, rfl⟩ := List.exists_cons_of_ne_nil hd.1
      rw [List.cons_append, List.takeWhile_cons_of_pos (hd.2 d List.mem_cons_self)]
      exact List.cons_ne_nil _ _
    rw [List.nil_append, name?, if_pos ⟨rfl, some⟩]
    exact ⟨_, rfl, Nat.le_refl 0⟩
  | cons c name ih =>
    rw [List.mem_cons, not_or] at line
    obtain ⟨found, read, shorter⟩ := ih line.2
    rw [List.cons_append, name?, if_neg (Ne.symm line.1), read]
    split
    · exact ⟨_, rfl, Nat.zero_le _⟩
    · exact ⟨_, rfl, Nat.succ_le_succ shorter⟩

/-- The shortest name that fits is found. -/
theorem name?_of_shortest (line : '\n' ∉ name) (hd : IsDecimal digits)
    (stop : ¬ rest.head?.any isDigit)
    (shortest : ∀ name' digits' rest', name ++ '-' :: (digits ++ rest) =
      name' ++ '-' :: (digits' ++ rest') → '\n' ∉ name' → IsDecimal digits' →
        name.length ≤ name'.length) :
    name? (name ++ '-' :: (digits ++ rest)) = some (name, digits) := by
  apply name?_append line ?_ hd stop
  rintro d digit ⟨u, w, rfl⟩
  have split : u ++ ['-', d] ++ w ++ '-' :: (digits ++ rest) =
      u ++ '-' :: ([d] ++ (w ++ '-' :: (digits ++ rest))) := by simp
  have before : '\n' ∉ u := by
    rw [List.append_assoc, List.mem_append, not_or] at line
    exact line.1
  have bound := shortest u [d] _ split before ⟨List.cons_ne_nil d [], by simpa using digit⟩
  simp +arith at bound

/-! The file. -/

theorem of_file? (h : file? cs = some f) :
    '\n' ∉ f.file ∧ ∃ rest, cs = f.file ++ rest ∧ afterFile? rest = some { f with file := [] } := by
  induction cs generalizing f with
  | nil => cases h
  | cons c cs ih =>
    rw [file?] at h
    split at h
    · rename_i longer
      cases h
      split at longer
      · cases longer
      · rename_i newline
        obtain ⟨line, rest, rfl, found⟩ := ih longer
        refine ⟨?_, rest, rfl, found⟩
        rw [List.mem_cons, not_or]
        exact ⟨Ne.symm newline, line⟩
    · have empty := (of_afterFile? h).1
      rw [empty]
      refine ⟨List.not_mem_nil, c :: cs, rfl, ?_⟩
      rw [h, ← empty]

/-- A file that fits is found, or else a longer one. -/
theorem exists_file? (line : '\n' ∉ file) (found : afterFile? rest = some g) :
    ∃ f, file? (file ++ rest) = some f ∧ file.length ≤ f.file.length := by
  induction file with
  | nil =>
    cases rest with
    | nil => cases found
    | cons c rest =>
      rw [List.nil_append, file?, found]
      split
      · exact ⟨_, rfl, Nat.zero_le _⟩
      · exact ⟨g, rfl, Nat.zero_le _⟩
  | cons c file ih =>
    rw [List.mem_cons, not_or] at line
    obtain ⟨f, read, longer⟩ := ih line.2
    rw [List.cons_append, file?, if_neg (Ne.symm line.1), read]
    exact ⟨_, rfl, Nat.succ_le_succ longer⟩

theorem file?_of_longest (line : '\n' ∉ file) (found : afterFile? rest = some g)
    (longest : ∀ file' rest' g', file ++ rest = file' ++ rest' → '\n' ∉ file' →
      afterFile? rest' = some g' → file'.length ≤ file.length) :
    file? (file ++ rest) = some { g with file := file } := by
  obtain ⟨f, read, longer⟩ := exists_file? line found
  obtain ⟨line', rest', split, found'⟩ := of_file? read
  have length := longest f.file rest' _ split line' found'
  obtain ⟨same, rfl⟩ := List.append_inj split (Nat.le_antisymm longer length)
  have parts : g = { f with file := [] } := Option.some.inj (found.symm.trans found')
  rw [read, parts, same]

/-! The mark. -/

/-- What is found stands behind the earliest `In ` that fits. -/
theorem of_find? (h : find? cs = some f) :
    ∃ before rest, cs = before ++ ("In ".toList ++ rest) ∧ file? rest = some f ∧
      ∀ before' rest' f', cs = before' ++ ("In ".toList ++ rest') → file? rest' = some f' →
        before.length ≤ before'.length := by
  induction cs with
  | nil => cases h
  | cons c cs ih =>
    rw [find?] at h
    split at h
    · rename_i found
      cases h
      obtain ⟨rest, front, read⟩ := Option.bind_eq_some_iff.1 found
      rw [List.isPrefixOf?_eq_some_iff_append_eq] at front
      exact ⟨[], rest, front.symm, read, fun _ _ _ _ _ => Nat.zero_le _⟩
    · rename_i none
      obtain ⟨before, rest, rfl, read, earliest⟩ := ih h
      refine ⟨c :: before, rest, rfl, read, ?_⟩
      intro before' rest' f' split read'
      cases before' with
      | nil =>
        have front : ['I', 'n', ' '].isPrefixOf? (c :: (before ++ ("In ".toList ++ rest))) =
            some rest' := List.isPrefixOf?_eq_some_iff_append_eq.2 split.symm
        rw [front, Option.bind_some, read'] at none
        cases none
      | cons d before' =>
        exact Nat.succ_le_succ (earliest before' rest' f' (List.cons.inj split).2 read')

theorem exists_find? (before : List Char) (read : file? rest = some g) :
    ∃ f, find? (before ++ ("In ".toList ++ rest)) = some f := by
  induction before with
  | nil =>
    have front : ['I', 'n', ' '].isPrefixOf? ('I' :: 'n' :: ' ' :: rest) = some rest :=
      List.isPrefixOf?_eq_some_iff_append_eq.2 rfl
    refine ⟨g, ?_⟩
    change find? ('I' :: 'n' :: ' ' :: rest) = some g
    rw [find?, front, Option.bind_some, read]
  | cons c before ih =>
    rw [List.cons_append, find?]
    split
    · exact ⟨_, rfl⟩
    · exact ih

theorem find?_of_earliest (read : file? rest = some f)
    (earliest : ∀ before' rest' f', before ++ ("In ".toList ++ rest) =
      before' ++ ("In ".toList ++ rest') → file? rest' = some f' →
        before.length ≤ before'.length) :
    find? (before ++ ("In ".toList ++ rest)) = some f := by
  obtain ⟨g, found⟩ := exists_find? before read
  obtain ⟨before', rest', split, read', earliest'⟩ := of_find? found
  have length := Nat.le_antisymm (earliest before' rest' g split read')
    (earliest' before rest f rfl read)
  obtain ⟨rfl, behind⟩ := List.append_inj split length
  rw [List.append_cancel_left behind, read'] at read
  rw [found, read]

/-! From the parts that are read to those that stand on the line, and back. -/

theorem spelling_append (f : MarkFields) (after : List Char) : f.spelling ++ after =
    f.file ++ (lineNumbers f.first f.last ++ (f.name ++ '-' :: (f.occurrence ++ after))) := by
  simp only [spelling_eq, List.append_assoc, List.cons_append]

/-- What stands behind a file that is read, with the file in front. -/
theorem of_afterFile?_append (line : '\n' ∉ file) (h : afterFile? rest = some g) :
    ∃ after, file ++ rest = { g with file := file }.spelling ++ after ∧
      IsFit { g with file := file } ∧ ¬ after.head?.any isDigit := by
  obtain ⟨-, first, last, behind, rfl, name⟩ := of_afterFile? h
  obtain ⟨nameLine, digits, after, rfl, stop⟩ := of_name? name
  refine ⟨after, ?_, ⟨line, first, last, nameLine, digits⟩, stop⟩
  rw [spelling_append]

theorem of_file?_spelling (h : file? rest = some f) :
    ∃ after, rest = f.spelling ++ after ∧ f.IsFit ∧ ¬ after.head?.any isDigit := by
  obtain ⟨line, behind, rfl, found⟩ := of_file? h
  have parts := of_afterFile?_append line found
  exact parts

theorem IsFit.exists_afterFile? (h : f.IsFit) (after : List Char) :
    ∃ g, afterFile? (lineNumbers f.first f.last ++ (f.name ++ '-' :: (f.occurrence ++ after))) =
      some g ∧ g.name.length ≤ f.name.length := by
  obtain ⟨found, name, shorter⟩ := exists_name? h.name h.occurrence after
  exact ⟨_, afterFile?_append h.first h.last name, shorter⟩

/-- Parts that stand on a line are read, though maybe with a longer file. -/
theorem IsFit.exists_file? (h : f.IsFit) (after : List Char) :
    ∃ g, file? (f.spelling ++ after) = some g ∧ f.file.length ≤ g.file.length := by
  obtain ⟨g, found, -⟩ := h.exists_afterFile? after
  rw [spelling_append]
  exact MarkFields.exists_file? h.file found

/-- The mark that is found is the one chosen. -/
theorem isChosen_of_find? (h : find? cs = some f) :
    ∃ before after, IsChosen cs before f after := by
  obtain ⟨before, rest, rfl, read, earliest⟩ := of_find? h
  obtain ⟨line, behind, split, found⟩ := of_file? read
  obtain ⟨after, spelled, fit, stop⟩ := of_file?_spelling read
  -- Another mark at the same `In ` is spelled by the same text.
  have same (f' : MarkFields) (after' : List Char)
      (h' : StandsIn (before ++ ("In ".toList ++ rest)) before f' after') :
      rest = f'.spelling ++ after' :=
    List.append_cancel_left (List.append_cancel_left h'.split)
  refine ⟨before, after, ⟨by rw [spelled], fit⟩, ?_, ?_, ?_, stop⟩
  · intro before' f' after' h'
    obtain ⟨g, read', -⟩ := h'.fit.exists_file? after'
    exact earliest before' _ g h'.split read'
  · intro f' after' h'
    obtain ⟨g, read', longer⟩ := h'.fit.exists_file? after'
    rw [← same f' after' h', read] at read'
    cases read'
    exact longer
  · intro f' after' h' file
    have text := same f' after' h'
    rw [split, spelling_append, file] at text
    obtain ⟨g, found', shorter⟩ := h'.fit.exists_afterFile? after'
    rw [← List.append_cancel_left text, found] at found'
    cases found'
    exact shorter

theorem IsChosen.find?_eq (h : IsChosen cs before f after) : find? cs = some f := by
  have name : name? (f.name ++ '-' :: (f.occurrence ++ after)) = some (f.name, f.occurrence) := by
    apply name?_of_shortest h.fit.name h.fit.occurrence h.wholeNumber
    intro name' digits' rest' split line decimal
    apply h.shortestName { f with name := name', occurrence := digits' } rest' ?_ rfl
    refine ⟨?_, h.fit.file, h.fit.first, h.fit.last, line, decimal⟩
    rw [h.split, spelling_append, spelling_append, split]
  have numbers := afterFile?_append h.fit.first h.fit.last name
  have file : file? (f.spelling ++ after) = some f := by
    rw [spelling_append]
    apply file?_of_longest h.fit.file numbers
    intro file' rest' g' split line found
    obtain ⟨after', spelled, fit, -⟩ := of_afterFile?_append line found
    apply h.longestFile { g' with file := file' } after' ⟨?_, fit⟩
    rw [h.split, spelling_append, split, spelled]
  rw [h.split]
  apply find?_of_earliest file
  intro before' rest' f' split read
  obtain ⟨after', rfl, fit, -⟩ := of_file?_spelling read
  exact h.earliest before' f' after' ⟨h.split.trans split, fit⟩

/-- The mark that is found is the one chosen among all on the line. -/
theorem find?_eq_some_iff : find? cs = some f ↔ ∃ before after, IsChosen cs before f after := by
  constructor
  · exact isChosen_of_find?
  · rintro ⟨before, after, h⟩
    exact h.find?_eq

theorem find?_isSome_iff : (find? cs).isSome ↔ ∃ before f after, StandsIn cs before f after := by
  constructor
  · intro some
    obtain ⟨f, found⟩ := Option.isSome_iff_exists.1 some
    obtain ⟨before, after, h⟩ := isChosen_of_find? found
    exact ⟨before, f, after, h.toStandsIn⟩
  · rintro ⟨before, f, after, h⟩
    obtain ⟨g, read, -⟩ := h.fit.exists_file? after
    obtain ⟨g', found⟩ := exists_find? before read
    rw [h.split, found]
    rfl

/-- What the pattern of marks takes at the leftmost place are the parts chosen. -/
theorem isChosen_iff_search? (cs : List Char) (f : MarkFields) :
    (∃ before after, IsChosen cs before f after) ↔
      ∃ found, pattern.search? [] cs = some found ∧ found.parts.tail = f.parts := by
  rw [← find?_eq_some_iff, ← Option.map_eq_some_iff, search?_pattern, Option.map_eq_some_iff]
  constructor
  · intro found
    exact ⟨f, found, rfl⟩
  · rintro ⟨g, found, same⟩
    rw [found, parts_injective same]

def FitsWords (f : MarkFields) : Prop :=
  valueIn 10 f.first < wordBound ∧ valueIn 10 f.last < wordBound ∧
    valueIn 10 f.occurrence < wordBound

end MarkFields

namespace Mark
variable {m : Mark} {f : MarkFields} {line : String}

theorem ofFields?_eq_some_iff : ofFields? f = some m ↔ f.FitsWords ∧
    m = ⟨String.ofList (mountDrive f.file), valueIn 10 f.first - 1, valueIn 10 f.last - 1,
      String.ofList f.name, valueIn 10 f.occurrence⟩ := by
  have number (digits : List Char) (n : Nat) :
      word? digits = some n ↔ valueIn 10 digits < wordBound ∧ valueIn 10 digits = n := by
    rw [word?, Option.ite_none_right_eq_some, Option.some_inj]
  simp only [ofFields?, MarkFields.FitsWords, Option.bind_eq_bind, Option.bind_eq_some_iff, number]
  constructor
  · rintro ⟨first, ⟨small, rfl⟩, last, ⟨small', rfl⟩, occurrence, ⟨small'', rfl⟩, same⟩
    exact ⟨⟨small, small', small''⟩, (Option.some.inj same).symm⟩
  · rintro ⟨⟨small, small', small''⟩, rfl⟩
    exact ⟨_, ⟨small, rfl⟩, _, ⟨small', rfl⟩, _, ⟨small'', rfl⟩, rfl⟩

theorem ofFields?_eq_none_iff : ofFields? f = none ↔ ¬ f.FitsWords := by
  rw [Option.eq_none_iff_forall_ne_some]
  constructor
  · intro none fits
    exact none _ (ofFields?_eq_some_iff.2 ⟨fits, rfl⟩)
  · intro large m read
    exact large (ofFields?_eq_some_iff.1 read).1

/-- A line is a trace line just if the parts of a mark stand on it somewhere. The mark that it
carries is that of the parts chosen, which are those that the leftmost match of the pattern takes,
and there is none if there are no such parts or if one of their numbers takes more than 64 bits. -/
theorem ofLine?_choice (line : String) :
    (isMarkLine line ↔ ∃ before f after, MarkFields.StandsIn line.toList before f after) ∧
    (∀ f, (∃ before after, MarkFields.IsChosen line.toList before f after) ↔
      ∃ found, MarkFields.pattern.search? [] line.toList = some found ∧
        found.parts.tail = f.parts) ∧
    (∀ m, ofLine? line = some m ↔
      ∃ before f after, MarkFields.IsChosen line.toList before f after ∧ f.FitsWords ∧
        m = ⟨String.ofList (mountDrive f.file), valueIn 10 f.first - 1, valueIn 10 f.last - 1,
          String.ofList f.name, valueIn 10 f.occurrence⟩) ∧
    (ofLine? line = none ↔ ¬ isMarkLine line ∨
      ∃ before f after, MarkFields.IsChosen line.toList before f after ∧ ¬ f.FitsWords) := by
  refine ⟨MarkFields.find?_isSome_iff, MarkFields.isChosen_iff_search? _, ?_, ?_⟩
  · intro m
    rw [ofLine?, Option.bind_eq_some_iff]
    constructor
    · rintro ⟨f, found, read⟩
      obtain ⟨before, after, chosen⟩ := MarkFields.isChosen_of_find? found
      exact ⟨before, f, after, chosen, ofFields?_eq_some_iff.1 read⟩
    · rintro ⟨before, f, after, chosen, read⟩
      exact ⟨f, chosen.find?_eq, ofFields?_eq_some_iff.2 read⟩
  · rw [ofLine?, isMarkLine, Option.not_isSome_iff_eq_none]
    constructor
    · intro none
      cases found : MarkFields.find? line.toList with
      | none => exact .inl rfl
      | some f =>
        obtain ⟨before, after, chosen⟩ := MarkFields.isChosen_of_find? found
        rw [found, Option.bind_some] at none
        exact .inr ⟨before, f, after, chosen, ofFields?_eq_none_iff.1 none⟩
    · rintro (none | ⟨before, f, after, chosen, large⟩)
      · rw [none, Option.bind_none]
      · rw [chosen.find?_eq, Option.bind_some, ofFields?_eq_none_iff.2 large]

/-- The longest file and then the shortest name. -/
example : ofLine? "at In a (1-2) In b (3-4) p-q-5-6" = some ⟨"a (1-2) In b", 2, 3, "p-q", 5⟩ := by
  decide +kernel

end Mark
end PrologSource
