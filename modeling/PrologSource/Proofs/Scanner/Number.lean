import PrologSource.Proofs.Scanner.Progress
import PrologSource.Proofs.Suffix
import PrologSource.Scanner.Number

/-! Reading a number. Where it turns out to end before what seemed to be its suffix, the token that
the number reader adds behind it is the one that would be read there anyway. -/
namespace PrologSource
namespace Scanner
variable {all : List Token} {r : Scanner} {p : Position} {c : Char} {lead rest cs : List Char}

/-- Behind the digits `lead` at the place `p`, the tokens are those that the reader has, that of the
number with the suffix at the front of `rest`, and those of what follows the suffix. -/
def Awaits (all : List Token) (r : Scanner) (p : Position) (lead rest : List Char) : Prop :=
  ∀ suffix more, Suffix.read lead rest = (suffix, more) →
    Completes all (r.addToken .number (Numeral.text ⟨lead, suffix⟩))
      (p.walk r.tabWidth suffix.spelling) false more

theorem Completes.awaits {s : Scanner} {afterGap : Bool} (h : Completes all s p afterGap (c :: cs))
    (digit : isDigit c) : Awaits all (s.saveAt (p.advance s.tabWidth (some c)))
      (p.walk s.tabWidth ((c :: cs).takeWhile isDigit)) ((c :: cs).takeWhile isDigit)
      ((c :: cs).dropWhile isDigit) := by
  intro suffix more found
  have read : Item.Reads (c :: cs) (.lexeme (.number ⟨(c :: cs).takeWhile isDigit, suffix⟩))
      more := by
    refine ⟨c, cs, rfl, ?_⟩
    have front : CharClass.ofChar c = .digit := by simpa [isDigit] using digit
    rw [Item.read, front]
    simp only [Numeral.read, found]
  have done := h.lexeme read rfl
  rwa [Lexeme.spelling, Numeral.spelling, Position.walk_append] at done

theorem Awaits.plain (h : Awaits all r p lead rest)
    (found : Suffix.read lead rest = (.plain, rest)) :
    Completes all (r.addToken .number lead) p false rest := by
  have text : Numeral.text ⟨lead, .plain⟩ = lead := List.append_nil lead
  have done := h _ _ found
  rwa [text] at done

private theorem not_sign_of_digit (digit : cs.head?.any isDigit) :
    ¬ cs.head?.any fun d => d = '+' || d = '-' := by
  cases cs with
  | nil => cases digit
  | cons d cs =>
    intro sign
    have signed : d = '+' ∨ d = '-' := by simpa using sign
    rcases signed with rfl | rfl <;> exact Bool.false_ne_true digit

theorem base?_eq_some_iff {base : Nat} :
    base? lead = some base ↔ valueIn 10 lead = base ∧ 2 ≤ base ∧ base ≤ 36 := by
  unfold base?
  split
  · simp [Option.filter_eq_some_iff]
  · rename_i large
    have : 36 < UInt32.size := by decide
    simp only [Option.filter_none, reduceCtorEq, false_iff]
    omega

theorem read_plain (zero : lead = ['0'] →
      Suffix.special? rest = none ∧ Suffix.marked? rest = none ∧ Suffix.code? rest = none)
    (fraction : rest.head? = some '.' → ¬ rest.tail.head?.any isDigit)
    (based : rest.head? = some '\'' → base? lead = none) :
    Suffix.read lead rest = (.plain, rest) := by
  have fraction : Suffix.fraction? rest = none := by
    cases rest with
    | nil => rfl
    | cons c rest =>
      refine if_neg ?_
      rintro ⟨rfl, digits⟩
      exact digits (takeWhile_eq_nil_of_head (fraction rfl))
  have based : Suffix.based? (valueIn 10 lead) rest = none := by
    cases rest with
    | nil => rfl
    | cons c rest =>
      refine if_neg ?_
      rintro ⟨rfl, low, high, -⟩
      have found := base?_eq_some_iff.2 ⟨rfl, low, high⟩
      rw [based rfl] at found
      cases found
  by_cases single : lead = ['0']
  · obtain ⟨special, marked, code⟩ := zero single
    rw [single, Suffix.read_zero, special, marked, code, fraction]
    rfl
  · rw [Suffix.read_other single, based, fraction]
    rfl

theorem exponentKind_eq (letter : c = 'e' ∨ c = 'E') :
    exponentKind c = if isUpper c then .var else .atom := by
  rcases letter with rfl | rfl <;> rfl

/-- The letter of an exponent that has a sign but no digits is a name by itself, and the sign begins
a symbol. -/
private theorem leads_letter_sign {d : Char} (letter : isLetter c) (sign : d = '+' ∨ d = '-')
    (h : Completes all r p false (c :: d :: cs)) :
    let q := p.advance r.tabWidth (some c)
    let q' := q.advance r.tabWidth (some d)
    Leads all (((((r.saveAt q).addToken (if isUpper c then .var else .atom) [c]).saveAt q').behind
      q' cs).readSymbol d) := by
  intro q q'
  have stop : ¬ (d :: cs).head?.any isAlphanumeric := by
    rcases sign with rfl | rfl <;> exact Bool.false_ne_true
  have name := @Item.reads_name c [] (d :: cs) letter nofun stop
  have symbol : isSymbol d := by rcases sign with rfl | rfl <;> rfl
  refine leads_readSymbol (h.lexeme name rfl) symbol ?_ ?_
  · rcases sign with rfl | rfl <;> exact fun slash => absurd slash (by decide)
  · rcases sign with rfl | rfl <;> exact fun point => absurd point (by decide)

theorem leads_readExponent {text : List Char} (letter : c = 'e' ∨ c = 'E')
    (plain : Exponent.read? (c :: cs) = none →
      Completes all (r.addToken .number text) p false (c :: cs))
    (longer : ∀ e more, Exponent.read? (c :: cs) = some (e, more) →
      Completes all (r.addToken .number (text ++ e.spelling)) (p.walk r.tabWidth e.spelling) false
        more) :
    Leads all ((r.behind p (c :: cs)).readExponent text c) := by
  have small : isLetter c := by rcases letter with rfl | rfl <;> rfl
  by_cases digit : cs.head?.any isDigit
  · have found := Exponent.read?_unsigned (not_sign_of_digit digit) c
    rw [if_pos ⟨letter, takeWhile_ne_nil_of_head digit⟩] at found
    have done := longer _ _ found
    simp only [readExponent, next_behind, ch_behind, digit, ↓reduceIte, readWhile_behind]
    exact done.leads
  simp only [readExponent, next_behind, ch_behind, position_behind, List.head?_cons, digit,
    Bool.false_eq_true, ↓reduceIte, exponentKind_eq letter]
  by_cases sign : cs.head?.any fun d => d = '+' || d = '-'
  · cases cs with
    | nil => cases sign
    | cons d cs =>
      have signed : d = '+' ∨ d = '-' := by simpa using sign
      have front : ((d :: cs).head?.filter fun d => d = '+' || d = '-') = some d :=
        Option.filter_some_pos sign
      have found := Exponent.read?_sign letter signed cs
      rw [front]
      by_cases more : cs.head?.any isDigit
      · rw [if_neg (takeWhile_ne_nil_of_head more)] at found
        have done := longer _ _ found
        simp only [next_behind, ch_behind, more, ↓reduceIte, readWhile_behind]
        exact done.leads
      · -- neither a digit nor a digit behind a sign: two tokens are added behind the number
        rw [if_pos (takeWhile_eq_nil_of_head more)] at found
        simp only [next_behind, ch_behind, more, Bool.false_eq_true, ↓reduceIte]
        exact leads_letter_sign small signed (plain found)
  · have front : (cs.head?.filter fun d => d = '+' || d = '-') = none := by
      cases cs with
      | nil => rfl
      | cons d cs => simpa using sign
    have found := Exponent.read?_unsigned sign c
    rw [if_neg fun h => h.2 (takeWhile_eq_nil_of_head digit)] at found
    rw [front]
    exact leads_readName (plain found) small

theorem leads_readFraction (h : Awaits all r p lead ('.' :: cs)) (digit : cs.head?.any isDigit) :
    Leads all ((r.behind (p.advance r.tabWidth (some '.')) cs).readFraction (lead ++ ['.'])) := by
  have read := Suffix.read_fraction lead digit
  have text (e : Option Exponent) : Numeral.text ⟨lead, .fraction (cs.takeWhile isDigit) e⟩ =
      lead ++ ['.'] ++ cs.takeWhile isDigit ++ (e.map Exponent.spelling).getD [] := by
    simp [Numeral.text, Numeral.spelling, Suffix.spelling]
  have plain (absent : Exponent.read? (cs.dropWhile isDigit) = none) :
      Completes all (r.addToken .number (lead ++ ['.'] ++ cs.takeWhile isDigit))
        (p.walk r.tabWidth ('.' :: cs.takeWhile isDigit)) false (cs.dropWhile isDigit) := by
    rw [absent] at read
    have done := h _ _ read
    rw [text] at done
    simpa [Suffix.spelling] using done
  have longer (e : Exponent) (more : List Char)
      (found : Exponent.read? (cs.dropWhile isDigit) = some (e, more)) :
      Completes all (r.addToken .number (lead ++ ['.'] ++ cs.takeWhile isDigit ++ e.spelling))
        ((p.walk r.tabWidth ('.' :: cs.takeWhile isDigit)).walk r.tabWidth e.spelling) false
        more := by
    rw [found] at read
    have done := h _ _ read
    rw [text] at done
    simpa [Suffix.spelling, Position.walk_append] using done
  simp only [readFraction, readWhile_behind, ch_behind]
  cases left : cs.dropWhile isDigit with
  | nil =>
    rw [left] at plain
    exact (plain rfl).leads
  | cons c tail =>
    rw [left] at plain longer
    by_cases letter : c = 'e' ∨ c = 'E'
    · rw [List.head?_cons, Option.filter_some_pos (by simpa using letter)]
      exact leads_readExponent letter plain longer
    · rw [List.head?_cons, Option.filter_some_neg (by simpa using letter)]
      refine (plain (if_neg ?_)).leads
      exact fun h => letter h.1

/-- Where no digit of the base follows, `other` reads what is there. -/
theorem leads_readBased {base : Nat} {plain : List Char} {other : Scanner → Scanner}
    (empty : cs.takeWhile (isDigitIn base) = [] →
      Leads all (other (((r.addToken .number plain).saveAt (p.advance r.tabWidth (some c))).behind
        (p.advance r.tabWidth (some c)) cs)))
    (nonempty : cs.takeWhile (isDigitIn base) ≠ [] → Completes all
      (r.addToken .number (decimal base ++ '\'' :: cs.takeWhile (isDigitIn base)))
      (p.walk r.tabWidth (c :: cs.takeWhile (isDigitIn base))) false
      (cs.dropWhile (isDigitIn base))) :
    Leads all ((r.behind p (c :: cs)).readBased base plain other) := by
  simp only [readBased, next_behind, readWhile_behind, position_behind, List.head?_cons]
  by_cases digits : cs.takeWhile (isDigitIn base) = []
  · have left := List.takeWhile_append_dropWhile (p := isDigitIn base) (l := cs)
    rw [digits, List.nil_append] at left
    rw [if_pos digits, digits, left]
    exact empty digits
  · rw [if_neg digits]
    exact (nonempty digits).leads

theorem leads_readDigits (digits : List Char)
    (h : Awaits all r (p.walk r.tabWidth (cs.takeWhile isDigit)) (digits ++ cs.takeWhile isDigit)
      (cs.dropWhile isDigit))
    (zero : digits ++ cs.takeWhile isDigit = ['0'] →
      Suffix.special? (cs.dropWhile isDigit) = none ∧
      Suffix.marked? (cs.dropWhile isDigit) = none ∧ Suffix.code? (cs.dropWhile isDigit) = none) :
    Leads all ((r.behind p cs).readDigits digits) := by
  simp only [readDigits, readWhile_behind]
  generalize p.walk r.tabWidth (cs.takeWhile isDigit) = q at h ⊢
  generalize digits ++ cs.takeWhile isDigit = lead at h zero ⊢
  generalize cs.dropWhile isDigit = rest at h zero ⊢
  cases rest with
  | nil => exact (h.plain (read_plain zero (by simp) (by simp))).leads
  | cons c rest =>
    simp only [ch_behind, List.head?_cons, peek_zero_behind, Option.some.injEq]
    by_cases point : c = '.' ∧ rest.head?.any isDigit
    · obtain ⟨rfl, digit⟩ := point
      simp only [digit, and_self, ↓reduceIte]
      exact leads_readFraction h digit
    simp only [point, ↓reduceIte]
    by_cases quote : c = '\''
    · subst quote
      cases found : base? lead with
      | none =>
        exact (h.plain (read_plain zero (by simp) fun _ => found)).leads
      | some base =>
        obtain ⟨rfl, low, high⟩ := base?_eq_some_iff.1 found
        have read := Suffix.read_based low high rest
        refine leads_readBased (fun empty => ?_) (fun nonempty => ?_)
        · rw [if_pos empty] at read
          exact leads_addQuoted (q := .single) (h.plain read)
        · rw [if_neg nonempty] at read
          exact h _ _ read
    · have plain := h.plain (read_plain zero
        (fun front digit => point ⟨by simpa using front, digit⟩)
        fun front => absurd (by simpa using front) quote)
      split
      · rename_i same _
        exact absurd (by simpa using same) quote
      · exact plain.leads

theorem readCharacter_behind : (r.behind p cs).readCharacter =
    .ok ((Suffix.readPieces cs).1.findSome? (Piece.meaning .single),
      r.behind (p.walk r.tabWidth ((Suffix.readPieces cs).1.flatMap (Piece.spelling .single)))
        (Suffix.readPieces cs).2) := by
  fun_induction Suffix.readPieces cs generalizing p with
  | case1 =>
    rw [readCharacter]
    rfl
  | case2 rest stands =>
    obtain ⟨d, stands⟩ := Option.isSome_iff_exists.1 stands
    rw [readCharacter]
    simp [readEscape_behind, stands, Piece.meaning, Piece.spelling]
  | case3 rest nothing ih =>
    have none : (Escape.read rest).1.meaning = none := by simpa using nothing
    rw [readCharacter]
    simp [readEscape_behind, none, ih, Piece.meaning, Piece.spelling, Position.walk_append]
  | case4 c rest plain both =>
    obtain ⟨rfl, two⟩ := both
    obtain ⟨tail, rfl⟩ := List.head?_eq_some_iff.1 two
    rw [readCharacter]
    simp [Piece.meaning, Piece.spelling, Quote.char]
  | case5 c rest plain other =>
    rw [readCharacter]
    by_cases quote : c = '\''
    · have single : ¬ rest.head? = some '\'' := fun two => other ⟨quote, two⟩
      simp [quote, single, Piece.meaning, Piece.spelling]
    · simp [plain, quote, Piece.meaning, Piece.spelling]

private theorem all_zipIdx (name cs : List Char) (k : Nat) :
    ((name.zipIdx k).all fun c => cs[c.2]? == some c.1) = name.isPrefixOf (cs.drop k) := by
  induction name generalizing k with
  | nil => rfl
  | cons n name ih =>
    have front : cs[k]? = (cs.drop k).head? := List.head?_drop.symm
    have behind : cs.drop (k + 1) = (cs.drop k).tail := List.tail_drop.symm
    rw [List.zipIdx_cons, List.all_cons, ih, front, behind]
    cases cs.drop k with
    | nil => rfl
    | cons d rest =>
      rw [List.head?_cons, Option.some_beq_some, BEq.comm]
      rfl

theorem leads_readSpecialFloat (h : Awaits all r p ['0'] ('.' :: cs))
    (digit : ¬ cs.head?.any isDigit) :
    Leads all ((r.behind p ('.' :: cs)).readSpecialFloat?.getD
      ((r.behind p ('.' :: cs)).addToken .number ['0'])) := by
  have look (name : List Char) :
      ((name.zipIdx.all fun c => (r.behind p ('.' :: cs)).peek c.2 == some c.1) &&
        !((r.behind p ('.' :: cs)).peek name.length).any isAlphanumeric) =
      (name.isPrefixOf cs && !(cs.drop name.length).head?.any isAlphanumeric) := by
    simp only [peek_behind, List.head?_drop]
    rw [all_zipIdx, List.drop_zero]
  have special : Suffix.special? ('.' :: cs) = (Suffix.specialNames.find? fun n =>
      n.isPrefixOf cs && !(cs.drop n.length).head?.any isAlphanumeric).map fun n =>
        (.special n, cs.drop n.length) := by rw [Suffix.special?, if_pos rfl]
  simp only [readSpecialFloat?, look]
  cases found : Suffix.specialNames.find? fun n =>
      n.isPrefixOf cs && !(cs.drop n.length).head?.any isAlphanumeric with
  | none =>
    rw [found] at special
    exact (h.plain (read_plain (fun _ => ⟨special, rfl, rfl⟩) (fun _ => digit)
      fun quote => absurd quote (by simp))).leads
  | some name =>
    rw [found] at special
    have fits := List.find?_some found
    simp only [Bool.and_eq_true, List.isPrefixOf_iff_prefix] at fits
    obtain ⟨more, rfl⟩ := fits.1
    have read := Suffix.read_zero ('.' :: (name ++ more))
    rw [special] at read
    simp only [Option.map_some, List.drop_left, Option.some_or, Option.getD_some] at read
    have move := skip_behind r p ('.' :: name) more
    rw [List.length_cons, List.cons_append] at move
    rw [Option.map_some, Option.getD_some, move]
    exact (h _ _ read).leads

private theorem Awaits.single (h : Awaits all r (p.walk r.tabWidth (cs.takeWhile isDigit))
    ('0' :: cs.takeWhile isDigit) (cs.dropWhile isDigit)) (other : ¬ cs.head?.any isDigit) :
    Awaits all r p ['0'] cs := by
  have all := List.takeWhile_append_dropWhile (p := isDigit) (l := cs)
  rw [takeWhile_eq_nil_of_head other, List.nil_append] at all
  rwa [all, takeWhile_eq_nil_of_head other] at h

private theorem leads_readMarked (m : Marker) (h : Awaits all r p ['0'] (m.char :: cs)) :
    Leads all ((r.behind p (m.char :: cs)).readBased m.base ['0'] (·.readName .atom m.char)) := by
  have read := Suffix.read_marked m cs
  refine leads_readBased (fun empty => ?_) (fun nonempty => ?_)
  · rw [if_pos empty] at read
    have lower : ¬ isUpper m.char := by cases m <;> exact Bool.false_ne_true
    have name := leads_readName (h.plain read) (by cases m <;> rfl)
    rwa [if_neg lower] at name
  · rw [if_neg nonempty] at read
    exact h _ _ read

/-- Without a point that names a special float, a marker or a quote mark, a zero is read as other
digits are. -/
private theorem not_zero_suffix (point : c = '.' → cs.head?.any isDigit)
    (marker : Marker.ofChar? c = none) (quote : c ≠ '\'') :
    Suffix.special? (c :: cs) = none ∧ Suffix.marked? (c :: cs) = none ∧
      Suffix.code? (c :: cs) = none := by
  refine ⟨?_, ?_, if_neg quote⟩
  · by_cases dot : c = '.'
    · subst dot
      exact Suffix.special?_of_digit (point rfl)
    · rw [Suffix.special?, if_neg dot]
  · rw [Suffix.marked?, marker]

theorem leads_readAfterZero (h : Awaits all r (p.walk r.tabWidth (cs.takeWhile isDigit))
    ('0' :: cs.takeWhile isDigit) (cs.dropWhile isDigit)) :
    ∃ t, (r.behind p cs).readAfterZero = .ok t ∧ Leads all t := by
  cases cs with
  | nil =>
    refine ⟨_, rfl, leads_readDigits ['0'] h fun _ => ⟨rfl, rfl, rfl⟩⟩
  | cons d cs =>
    simp only [readAfterZero, ch_behind, List.head?_cons, peek_zero_behind, Option.some.injEq,
      Option.bind_some]
    by_cases point : d = '.' ∧ ¬ cs.head?.any isDigit
    · obtain ⟨rfl, digit⟩ := point
      simp only [digit, Bool.false_eq_true, not_false_eq_true, and_self, ↓reduceIte]
      exact ⟨_, rfl, leads_readSpecialFloat (h.single Bool.false_ne_true) digit⟩
    simp only [point, ↓reduceIte]
    cases marker : Marker.ofChar? d with
    | some m =>
      obtain rfl := Marker.char_of_ofChar? marker
      have awaits := h.single (by cases m <;> exact Bool.false_ne_true)
      exact ⟨_, rfl, leads_readMarked m awaits⟩
    | none =>
      by_cases quote : d = '\''
      · subst quote
        have done := h.single Bool.false_ne_true _ _ rfl
        simp only [↓reduceIte, next_behind, readCharacter_behind]
        refine ⟨_, rfl, ?_⟩
        have text : Numeral.text ⟨['0'], .code (Suffix.readPieces cs).1⟩ =
            decimal ((((Suffix.readPieces cs).1.findSome? (Piece.meaning .single)).map
              Char.toNat).getD 0) := rfl
        rw [text] at done
        cases stands : (Suffix.readPieces cs).1.findSome? (Piece.meaning .single) with
        | none =>
          rw [stands] at done
          exact done.leads
        | some d =>
          rw [stands] at done
          exact done.leads
      · simp only [quote, ↓reduceIte]
        refine ⟨_, rfl, leads_readDigits ['0'] h fun single => ?_⟩
        have run : (d :: cs).takeWhile isDigit = [] := (List.cons.inj single).2
        have rest := List.takeWhile_append_dropWhile (p := isDigit) (l := d :: cs)
        rw [run, List.nil_append] at rest
        rw [rest]
        exact not_zero_suffix (by simpa using point) marker quote

/-- Reading a number never fails. -/
theorem leads_readNumber {afterGap : Bool} {s : Scanner}
    (h : Completes all s p afterGap (c :: cs)) (digit : isDigit c) :
    ∃ t, ((s.saveAt (p.advance s.tabWidth (some c))).behind p (c :: cs)).readNumber = .ok t ∧
      Leads all t := by
  have awaits := h.awaits digit
  generalize hr : s.saveAt (p.advance s.tabWidth (some c)) = r at awaits ⊢
  have width : r.tabWidth = s.tabWidth := by rw [← hr]; rfl
  rw [← width, List.takeWhile_cons_of_pos digit, List.dropWhile_cons_of_pos digit] at awaits
  by_cases zero : c = '0'
  · subst zero
    rw [readNumber]
    simp only [ch_behind, List.head?_cons, ↓reduceIte, next_behind]
    exact leads_readAfterZero awaits
  · rw [readNumber]
    simp only [ch_behind, List.head?_cons, Option.some.injEq, zero, ↓reduceIte]
    refine ⟨_, rfl, leads_readDigits [] ?_ ?_⟩
    · rw [List.takeWhile_cons_of_pos digit, List.dropWhile_cons_of_pos digit]
      exact awaits
    · rw [List.takeWhile_cons_of_pos digit]
      exact fun same => absurd (List.cons.inj same).1 zero

end Scanner
end PrologSource
