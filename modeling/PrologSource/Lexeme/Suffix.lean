import PrologSource.Lexeme.Quotation

namespace PrologSource

structure Exponent where
  letter : Char
  sign : Option Char
  digits : List Char
  deriving DecidableEq, Repr

namespace Exponent

def spelling (e : Exponent) : List Char := e.letter :: (e.sign.toList ++ e.digits)

def signOf? : List Char → Option Char
  | [] => none
  | c :: _ => if c = '+' ∨ c = '-' then some c else none

def afterSign (cs : List Char) : List Char := cs.drop (signOf? cs).toList.length

/-- Reads an exponent; one without digits is none. -/
def read? : List Char → Option (Exponent × List Char)
  | [] => none
  | c :: rest =>
    if (c = 'e' ∨ c = 'E') ∧ (afterSign rest).takeWhile isDigit ≠ [] then
      some (⟨c, signOf? rest, (afterSign rest).takeWhile isDigit⟩,
        (afterSign rest).dropWhile isDigit)
    else none

private theorem sign_append (cs : List Char) : (signOf? cs).toList ++ afterSign cs = cs := by
  unfold afterSign signOf?
  split
  · rfl
  · split <;> rfl

theorem spelling_of_read? {cs : List Char} {e : Exponent} {rest : List Char}
    (h : read? cs = some (e, rest)) : e.spelling ++ rest = cs := by
  unfold read? at h
  split at h
  · cases h
  · split at h
    · cases h
      rw [spelling, List.cons_append, List.append_assoc, List.takeWhile_append_dropWhile,
        sign_append]
    · cases h

end Exponent

inductive Marker
  | binary | octal | hexadecimal
  deriving DecidableEq, Repr

namespace Marker

def char : Marker → Char
  | .binary => 'b'
  | .octal => 'o'
  | .hexadecimal => 'x'

def base : Marker → Nat
  | .binary => 2
  | .octal => 8
  | .hexadecimal => 16

def ofChar? (c : Char) : Option Marker := [binary, octal, hexadecimal].find? fun m => m.char = c

theorem char_of_ofChar? {c : Char} {m : Marker} (h : ofChar? c = some m) : m.char = c := by
  simpa using List.find?_some h

end Marker

inductive Suffix
  /-- Nothing: an integer. -/
  | plain
  /-- A point, digits and perhaps an exponent: a float. -/
  | fraction (digits : List Char) (exponent : Option Exponent)
  /-- A point and `Nan` or `Inf`, after a zero. -/
  | special (name : List Char)
  /-- A quote and digits, in the base that the leading digits give. -/
  | based (digits : List Char)
  /-- A base letter and digits, after a zero. -/
  | marked (m : Marker) (digits : List Char)
  /-- A quote and a character spelled as in quoted text, after a zero. The pieces before the last
  stand for nothing, and the last does so only at the end of the text. -/
  | code (pieces : List Piece)
  deriving DecidableEq, Repr

namespace Suffix

def spelling : Suffix → List Char
  | .plain => []
  | .fraction digits exponent => '.' :: (digits ++ (exponent.map Exponent.spelling).getD [])
  | .special name => '.' :: name
  | .based digits => '\'' :: digits
  | .marked m digits => m.char :: digits
  | .code pieces => '\'' :: pieces.flatMap (Piece.spelling .single)

def specialNames : List (List Char) := [['N', 'a', 'n'], ['I', 'n', 'f']]

def fraction? : List Char → Option (Suffix × List Char)
  | [] => none
  | c :: rest =>
    if c = '.' ∧ rest.takeWhile isDigit ≠ [] then
      match Exponent.read? (rest.dropWhile isDigit) with
      | none => some (.fraction (rest.takeWhile isDigit) none, rest.dropWhile isDigit)
      | some (e, more) => some (.fraction (rest.takeWhile isDigit) (some e), more)
    else none

/-- Reads a point and a special name that no further name character extends. -/
def special? : List Char → Option (Suffix × List Char)
  | [] => none
  | c :: rest =>
    if c = '.' then
      (specialNames.find? fun n =>
        n.isPrefixOf rest && !(rest.drop n.length).head?.any isAlphanumeric).map fun n =>
          (.special n, rest.drop n.length)
    else none

def based? (base : Nat) : List Char → Option (Suffix × List Char)
  | [] => none
  | c :: rest =>
    if c = '\'' ∧ 2 ≤ base ∧ base ≤ 36 ∧ rest.takeWhile (isDigitIn base) ≠ [] then
      some (.based (rest.takeWhile (isDigitIn base)), rest.dropWhile (isDigitIn base))
    else none

def marked? : List Char → Option (Suffix × List Char)
  | [] => none
  | c :: rest =>
    match Marker.ofChar? c with
    | none => none
    | some m =>
      if rest.takeWhile (isDigitIn m.base) = [] then none
      else some (.marked m (rest.takeWhile (isDigitIn m.base)), rest.dropWhile (isDigitIn m.base))

/-- Reads pieces up to the first that stands for a character. One or two quotes are one piece. -/
def readPieces : List Char → List Piece × List Char
  | [] => ([], [])
  | c :: rest =>
    if c = '\\' then
      if (Escape.read rest).1.meaning.isSome then
        ([.escape (Escape.read rest).1], (Escape.read rest).2)
      else
        (.escape (Escape.read rest).1 :: (readPieces (Escape.read rest).2).1,
          (readPieces (Escape.read rest).2).2)
    else if c = '\'' ∧ rest.head? = some '\'' then ([.doubled], rest.tail)
    else ([.raw c], rest)
termination_by cs => cs.length
decreasing_by all_goals exact Nat.lt_succ_of_le (Escape.length_read_le _)

def code? : List Char → Option (Suffix × List Char)
  | [] => none
  | c :: rest => if c = '\'' then some (.code (readPieces rest).1, (readPieces rest).2) else none

/-- The forms that may follow the digits `lead`. A single zero has forms of its own, and its
quote opens a character code. -/
def forms (lead : List Char) : List (List Char → Option (Suffix × List Char)) :=
  if lead = ['0'] then [special?, marked?, code?, fraction?]
  else [based? (valueIn 10 lead), fraction?]

def read (lead rest : List Char) : Suffix × List Char :=
  ((forms lead).findSome? fun form => form rest).getD (.plain, rest)

theorem spelling_of_fraction? {cs rest : List Char} {s : Suffix}
    (h : fraction? cs = some (s, rest)) : s.spelling ++ rest = cs := by
  unfold fraction? at h
  split at h
  · cases h
  split at h
  · rename_i c tail point
    have parts := List.takeWhile_append_dropWhile (p := isDigit) (l := tail)
    split at h <;> cases h
    · simp [spelling, point.1, parts]
    · rename_i e found
      have := Exponent.spelling_of_read? found
      simp [spelling, point.1, this, parts]
  · cases h

theorem spelling_of_special? {cs rest : List Char} {s : Suffix}
    (h : special? cs = some (s, rest)) : s.spelling ++ rest = cs := by
  unfold special? at h
  split at h
  · cases h
  split at h
  · rename_i c tail point
    obtain ⟨name, found, same⟩ := Option.map_eq_some_iff.1 h
    cases same
    have fits := List.find?_some found
    simp only [Bool.and_eq_true, List.isPrefixOf_iff_prefix] at fits
    obtain ⟨more, rfl⟩ := fits.1
    simp [spelling, point]
  · cases h

theorem spelling_of_based? {base : Nat} {cs rest : List Char} {s : Suffix}
    (h : based? base cs = some (s, rest)) : s.spelling ++ rest = cs := by
  unfold based? at h
  split at h
  · cases h
  split at h
  · rename_i point
    cases h
    simp [spelling, point.1, List.takeWhile_append_dropWhile]
  · cases h

theorem spelling_of_marked? {cs rest : List Char} {s : Suffix} (h : marked? cs = some (s, rest)) :
    s.spelling ++ rest = cs := by
  unfold marked? at h
  split at h
  · cases h
  split at h
  · cases h
  split at h <;> cases h
  rename_i found _
  simp [spelling, Marker.char_of_ofChar? found, List.takeWhile_append_dropWhile]

theorem spelling_readPieces (cs : List Char) :
    (readPieces cs).1.flatMap (Piece.spelling .single) ++ (readPieces cs).2 = cs := by
  fun_induction readPieces cs with
  | case1 => rfl
  | case2 => simp [Piece.spelling, Escape.spelling_read, *]
  | case3 => simp_all [Piece.spelling, Escape.spelling_read]
  | case4 c rest _ both =>
    obtain ⟨rfl, two⟩ := both
    obtain ⟨tail, rfl⟩ := List.head?_eq_some_iff.1 two
    rfl
  | case5 => rfl

theorem spelling_of_code? {cs rest : List Char} {s : Suffix} (h : code? cs = some (s, rest)) :
    s.spelling ++ rest = cs := by
  unfold code? at h
  split at h
  · cases h
  split at h <;> cases h
  simp [spelling, spelling_readPieces, *]

/-- A suffix spells what it was read from. -/
theorem spelling_read (lead cs : List Char) :
    (read lead cs).1.spelling ++ (read lead cs).2 = cs := by
  unfold read
  cases found : (forms lead).findSome? fun form => form cs with
  | none => rfl
  | some r =>
    obtain ⟨form, mem, result⟩ := List.exists_of_findSome?_eq_some found
    unfold forms at mem
    split at mem <;> simp only [List.mem_cons, List.not_mem_nil, or_false] at mem
    · rcases mem with rfl | rfl | rfl | rfl
      · exact spelling_of_special? result
      · exact spelling_of_marked? result
      · exact spelling_of_code? result
      · exact spelling_of_fraction? result
    · rcases mem with rfl | rfl
      · exact spelling_of_based? result
      · exact spelling_of_fraction? result

end Suffix

end PrologSource
