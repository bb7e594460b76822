import PrologSource.Proofs.Suffix
import PrologSource.Proofs.Vocabulary

/-! Numbers by the longest match. A number is written in one of six forms (`IsLiteral`), what is
read has one of them (`Numeral.isLiteral_read`), and no form goes on further
(`Numeral.length_le_read`). Main statement: the first token of a text that begins with a digit is
that of its longest literal (`tokenizeWith_number`). -/
namespace PrologSource
variable {cs rest : List Char}

/-- Before `rest`, the characters `literal` are a number, and `text` is how it is kept. Character
codes are left out. -/
inductive IsLiteral (rest : List Char) : (literal text : List Char) → Prop
  | integer {digits : List Char} : IsDecimal digits → IsLiteral rest digits digits
  | float {literal : List Char} : IsFloat literal → IsLiteral rest literal literal
  | special {literal : List Char} : IsSpecialFloat literal → ¬ rest.head?.any isAlphanumeric →
      IsLiteral rest literal literal
  | based {base digits : List Char} : IsDecimal base → 2 ≤ valueIn 10 base →
      valueIn 10 base ≤ 36 → digits ≠ [] → (∀ c ∈ digits, isDigitIn (valueIn 10 base) c) →
      IsLiteral rest (base ++ '\'' :: digits) (decimal (valueIn 10 base) ++ '\'' :: digits)
  | marked {letter : Char} {base : Nat} {digits : List Char} :
      (letter, base) ∈ [('b', 2), ('o', 8), ('x', 16)] → digits ≠ [] →
      (∀ c ∈ digits, isDigitIn base c) →
      IsLiteral rest ('0' :: letter :: digits) (decimal base ++ '\'' :: digits)

theorem length_le_takeWhile {p : Char → Bool} {run : List Char} (all : ∀ c ∈ run, p c)
    (t : List Char) : run.length ≤ ((run ++ t).takeWhile p).length := by
  rw [List.takeWhile_append_of_pos all, List.length_append]
  exact Nat.le_add_right ..

theorem takeWhile_ne_nil {p : Char → Bool} {run : List Char} (nonempty : run ≠ [])
    (all : ∀ c ∈ run, p c) (t : List Char) : (run ++ t).takeWhile p ≠ [] := by
  have longer := length_le_takeWhile all t
  have := List.length_pos_iff.2 nonempty
  exact List.length_pos_iff.1 (by omega)

/-! What is read is a literal. -/

namespace Suffix
variable {lead name : List Char} {s : Suffix}

/-- A special name that is read is not part of a longer name. -/
theorem not_alphanumeric_of_special? (h : special? cs = some (s, rest)) :
    ¬ rest.head?.any isAlphanumeric := by
  unfold special? at h
  split at h
  · cases h
  split at h
  · obtain ⟨name, found, same⟩ := Option.map_eq_some_iff.1 h
    cases same
    have fits := List.find?_some found
    rw [Bool.and_eq_true] at fits
    simpa using fits.2
  · cases h

/-- The other forms give no special names. -/
private theorem ne_special {base : Nat} {form : List Char → Option (Suffix × List Char)}
    (h : form ∈ [marked?, code?, based? base, fraction?]) (name rest : List Char) :
    form cs ≠ some (.special name, rest) := by
  intro result
  simp only [List.mem_cons, List.not_mem_nil, or_false] at h
  rcases h with rfl | rfl | rfl | rfl
  · unfold marked? at result
    repeat' split at result
    all_goals cases result
  · unfold code? at result
    repeat' split at result
    all_goals cases result
  · unfold based? at result
    repeat' split at result
    all_goals cases result
  · unfold fraction? at result
    repeat' split at result
    all_goals cases result

theorem not_alphanumeric_of_read (h : read lead cs = (.special name, rest)) :
    ¬ rest.head?.any isAlphanumeric := by
  unfold read at h
  cases found : (forms lead).findSome? fun form => form cs with
  | none =>
    rw [found] at h
    cases h
  | some r =>
    rw [found, Option.getD_some] at h
    subst h
    obtain ⟨form, mem, result⟩ := List.exists_of_findSome?_eq_some found
    by_cases other : form ∈ [marked?, code?, based? (valueIn 10 lead), fraction?]
    · exact absurd result (ne_special other name rest)
    · have special : form = special? := by
        unfold forms at mem
        split at mem <;> simp_all
      rw [special] at result
      exact not_alphanumeric_of_special? result

end Suffix

namespace Numeral
variable {n : Numeral}

/-- A well-formed numeral is a literal, unless it is a character code. -/
theorem WellFormed.isLiteral (h : n.WellFormed) (noCode : ∀ pieces, n.suffix ≠ .code pieces)
    (stop : ∀ name, n.suffix = .special name → ¬ rest.head?.any isAlphanumeric) :
    IsLiteral rest n.spelling n.text := by
  obtain ⟨lead, suffix⟩ := n
  obtain ⟨whole, suits⟩ := h
  cases suffix with
  | plain =>
    have form : IsDecimal (lead ++ []) := by rwa [List.append_nil]
    exact .integer form
  | fraction digits exponent =>
    obtain ⟨fraction, form⟩ := suits
    refine .float ⟨lead, digits, _, rfl, whole, fraction, ?_⟩
    cases exponent with
    | none => exact .inl rfl
    | some e => exact .inr (form e rfl).isExponent
  | special name =>
    obtain ⟨rfl, named⟩ := suits
    refine .special ?_ (stop name rfl)
    simp only [Suffix.specialNames, List.mem_cons, List.not_mem_nil, or_false] at named
    rcases named with rfl | rfl
    · exact .inl rfl
    · exact .inr rfl
  | based digits =>
    obtain ⟨-, low, high, nonempty, all⟩ := suits
    exact .based whole low high nonempty all
  | marked m digits =>
    obtain ⟨rfl, nonempty, all⟩ := suits
    have letter : (m.char, m.base) ∈ [('b', 2), ('o', 8), ('x', 16)] := by cases m <;> decide
    exact .marked letter nonempty all
  | code pieces => exact absurd rfl (noCode pieces)

theorem isLiteral_read {c : Char} (digit : isDigit c) (noCode : ¬ ['0', '\''] <+: c :: cs) :
    IsLiteral (read (c :: cs)).2 (read (c :: cs)).1.spelling (read (c :: cs)).1.text := by
  have form := wellFormed_read digit cs
  refine form.isLiteral ?_ ?_
  · intro pieces code
    have lead : (read (c :: cs)).1.lead = ['0'] := by
      have suits := form.2
      rwa [code] at suits
    apply noCode
    rw [← spelling_read (c :: cs), spelling, lead, code]
    exact ⟨_, rfl⟩
  · intro name special
    exact Suffix.not_alphanumeric_of_read (Prod.ext special rfl)

end Numeral

/-! No literal goes on further than what is read. -/

/-- An exponent is read at least as far as it goes. -/
theorem Exponent.length_le_read? (h : IsExponent cs) (t : List Char) :
    ∃ e left, read? (cs ++ t) = some (e, left) ∧ cs.length ≤ e.spelling.length := by
  obtain ⟨letter, sign, digits, rfl, front, signs, decimal⟩ := h
  obtain ⟨d, tail, spelled, digit⟩ := decimal.exists_cons
  have sign_eq : (signOf? (sign ++ (digits ++ t))).toList = sign := by
    rcases signs with rfl | rfl | rfl
    · have other : ¬ (d = '+' ∨ d = '-') := by
        rintro (rfl | rfl) <;> exact absurd digit (by decide)
      rw [spelled]
      simp [signOf?, other]
    · rfl
    · rfl
  have left : afterSign (sign ++ (digits ++ t)) = digits ++ t := by
    rw [afterSign, sign_eq, List.drop_left]
  have run := takeWhile_ne_nil decimal.1 decimal.2 t
  refine ⟨⟨letter, signOf? (sign ++ (digits ++ t)), (digits ++ t).takeWhile isDigit⟩,
    (digits ++ t).dropWhile isDigit, ?_, ?_⟩
  · rw [List.cons_append, List.append_assoc, read?, left, if_pos ⟨front, run⟩]
  · have longer := length_le_takeWhile decimal.2 t
    simp only [spelling, sign_eq, List.length_cons, List.length_append]
    omega

namespace Suffix
variable {lead digits name : List Char}

theorem length_le_read_fraction {exponent : List Char} (h : IsDecimal digits)
    (he : exponent = [] ∨ IsExponent exponent) (lead t : List Char) :
    ('.' :: (digits ++ exponent)).length ≤
      (read lead ('.' :: (digits ++ (exponent ++ t)))).1.spelling.length := by
  have digit : (digits ++ (exponent ++ t)).head?.any isDigit := by
    obtain ⟨d, tail, rfl, front⟩ := h.exists_cons
    exact front
  rw [read_fraction lead digit]
  simp only [spelling, List.length_cons, List.length_append]
  rcases he with rfl | he
  · have longer := length_le_takeWhile h.2 t
    simp only [List.nil_append, List.length_nil]
    omega
  · obtain ⟨e, left, found, longer⟩ := Exponent.length_le_read? he t
    obtain ⟨letter, sign, tail, rfl, front, -⟩ := he
    have stop : ¬ (letter :: (sign ++ tail) ++ t).head?.any isDigit := by
      change ¬ isDigit letter
      rcases front with rfl | rfl <;> decide
    obtain ⟨run, behind⟩ := takeWhile_run h.2 stop
    simp only [run, behind, found, Option.map_some, Option.getD_some]
    omega

theorem read_special (h : name ∈ specialNames) {t : List Char}
    (stop : ¬ t.head?.any isAlphanumeric) :
    read ['0'] ('.' :: (name ++ t)) = (.special name, t) := by
  have found : special? ('.' :: (name ++ t)) = some (.special name, t) := by
    simp only [specialNames, List.mem_cons, List.not_mem_nil, or_false] at h
    cases t with
    | nil => rcases h with rfl | rfl <;> rfl
    | cons d t =>
      have other : isAlphanumeric d = false := by simpa using stop
      rcases h with rfl | rfl <;> simp [special?, specialNames, other]
  unfold read forms
  simp [found]

end Suffix

namespace Numeral

theorem read_append {lead : List Char} (h : IsDecimal lead) (c : Char) (stop : ¬ isDigit c) :
    (read (lead ++ c :: cs)).1 = ⟨lead, (Suffix.read lead (c :: cs)).1⟩ := by
  obtain ⟨run, left⟩ := takeWhile_run (t := c :: cs) h.2 stop
  simp only [read, run, left]

/-- No literal at the front of a text is longer than the numeral that is read there. -/
theorem length_le_read {literal text : List Char} (h : IsLiteral rest literal text) :
    literal.length ≤ (read (literal ++ rest)).1.spelling.length := by
  cases h with
  | integer digits =>
    have longer := length_le_takeWhile digits.2 rest
    simp only [spelling, read, List.length_append]
    omega
  | float form =>
    obtain ⟨whole, fraction, exponent, rfl, hw, hf, he⟩ := form
    have longer := Suffix.length_le_read_fraction hf he whole rest
    rw [List.append_assoc, List.cons_append, List.append_assoc, read_append hw '.' (by decide),
      spelling, List.length_append, List.length_append]
    exact Nat.add_le_add_left longer _
  | special form stop =>
    have zero : IsDecimal ['0'] := by decide
    have named : ∃ name ∈ Suffix.specialNames, literal = ['0'] ++ '.' :: name := by
      rcases form with rfl | rfl
      · exact ⟨"Nan".toList, by decide, rfl⟩
      · exact ⟨"Inf".toList, by decide, rfl⟩
    obtain ⟨name, mem, rfl⟩ := named
    change _ ≤ (read (['0'] ++ '.' :: (name ++ rest))).1.spelling.length
    rw [read_append zero '.' (by decide), Suffix.read_special mem stop]
    exact Nat.le_refl _
  | @based base digits hb low high nonempty all =>
    have longer := length_le_takeWhile all rest
    rw [List.append_assoc, List.cons_append, read_append hb '\'' (by decide), spelling,
      Suffix.read_based low high, if_neg (takeWhile_ne_nil nonempty all rest)]
    simp only [Suffix.spelling, List.length_append, List.length_cons]
    omega
  | @marked letter base digits known nonempty all =>
    have zero : IsDecimal ['0'] := by decide
    have marker : ∃ m : Marker, m.char = letter ∧ m.base = base := by
      simp only [List.mem_cons, Prod.mk.injEq, List.not_mem_nil, or_false] at known
      rcases known with ⟨rfl, rfl⟩ | ⟨rfl, rfl⟩ | ⟨rfl, rfl⟩
      · exact ⟨.binary, rfl, rfl⟩
      · exact ⟨.octal, rfl, rfl⟩
      · exact ⟨.hexadecimal, rfl, rfl⟩
    obtain ⟨m, rfl, rfl⟩ := marker
    have longer := length_le_takeWhile all rest
    have stop : ¬ isDigit m.char := by cases m <;> decide
    change _ ≤ (read (['0'] ++ m.char :: (digits ++ rest))).1.spelling.length
    rw [read_append zero m.char stop, spelling, Suffix.read_marked m,
      if_neg (takeWhile_ne_nil nonempty all rest)]
    simp only [Suffix.spelling, List.length_append, List.length_cons, List.length_nil]
    omega

end Numeral

/-- The first token of a text that begins with a digit, but not with a character code, is a number.
Its lexeme is the longest literal at the front of the text, and its text is how that is kept. -/
theorem tokenizeWith_number (w : Int) (text : String)
    (digit : ∃ c ∈ text.toList.head?, '0' ≤ c ∧ c ≤ '9') (noCode : ¬ ['0', '\''] <+: text.toList) :
    ∃ lexeme rest number, text.toList = lexeme ++ rest ∧
      (∃ l, (Partition.ofText text.toList).parts[0]? = some ⟨[], l⟩ ∧ l.spelling = lexeme) ∧
      (tokenizeWith w text)[0]? = some ⟨.number, String.ofList number, ⟨0, 0⟩⟩ ∧
      IsLiteral rest lexeme number ∧
      ∀ literal behind other, text.toList = literal ++ behind → IsLiteral behind literal other →
        literal.length ≤ lexeme.length := by
  obtain ⟨c, front, low, high⟩ := digit
  obtain ⟨tail, all⟩ := List.head?_eq_some_iff.1 front
  have digit : isDigit c := (isDigit_iff c).2 ⟨low, high⟩
  have spelled := Numeral.spelling_read (c :: tail)
  have found := Numeral.isLiteral_read digit (all ▸ noCode)
  generalize same : Numeral.read (c :: tail) = result at spelled found
  obtain ⟨n, rest⟩ := result
  have read : Item.Reads text.toList (.lexeme (.number n)) rest := by
    refine ⟨c, tail, all, ?_⟩
    have front : CharClass.ofChar c = .digit := by simpa [isDigit] using digit
    rw [Item.read, front, same]
  have parts := Partition.ofText_of_reads read
  have first : (Partition.ofText text.toList).parts[0]? = some ⟨[], .number n⟩ := by
    rw [parts]
    rfl
  refine ⟨n.spelling, rest, n.text, by rw [all, spelled], ⟨_, first, rfl⟩, ?_, found, ?_⟩
  · rw [tokenizeWith_of_reads read rfl]
    rfl
  · intro literal behind other split form
    have longer := Numeral.length_le_read form
    rwa [← split, all, same] at longer

/-- The zeros before a base are dropped, and a letter that is no digit of it is left. -/
theorem number_with_base :
    (∃ c ∈ "0012'Bg".toList.head?, '0' ≤ c ∧ c ≤ '9') ∧ ¬ ['0', '\''] <+: "0012'Bg".toList ∧
    (tokenizeWith 1 "0012'Bg")[0]? = some ⟨.number, "12'B", ⟨0, 0⟩⟩ ∧
    IsLiteral ['g'] "0012'B".toList "12'B".toList ∧
    ∀ literal behind other, "0012'Bg".toList = literal ++ behind →
      IsLiteral behind literal other → literal.length ≤ 6 := by
  have digit : ∃ c ∈ "0012'Bg".toList.head?, '0' ≤ c ∧ c ≤ '9' := ⟨'0', rfl, by decide, by decide⟩
  have noCode : ¬ ['0', '\''] <+: "0012'Bg".toList := by decide
  obtain ⟨lexeme, rest, number, split, ⟨l, first, rfl⟩, token, form, longest⟩ :=
    tokenizeWith_number 1 "0012'Bg" digit noCode
  have part : (Partition.ofText "0012'Bg".toList).parts[0]? =
      some ⟨[], .number ⟨"0012".toList, .based ['B']⟩⟩ := by decide +kernel
  have read : (tokenizeWith 1 "0012'Bg")[0]? = some ⟨.number, "12'B", ⟨0, 0⟩⟩ := by
    decide +kernel
  obtain rfl : l = .number ⟨"0012".toList, .based ['B']⟩ :=
    congrArg Part.lexeme (Option.some.inj (first.symm.trans part))
  obtain rfl : rest = ['g'] := List.append_cancel_left (split.symm.trans (by rfl))
  obtain rfl : number = "12'B".toList := by
    have same : "12'B" = String.ofList number :=
      congrArg Token.text (Option.some.inj (read.symm.trans token))
    rw [same, String.toList_ofList]
  exact ⟨digit, noCode, read, form, longest⟩

end PrologSource
