import PrologSource.Lexeme.Escape
import PrologSource.Proofs.Lookahead.Break

namespace PrologSource
variable {base code : UInt32} {n d : Nat} {c : Char}

theorem toNat_clamp (n : Nat) : (UInt32.ofNatClamp n).toNat = min n (UInt32.size - 1) := by
  by_cases fits : n < UInt32.size
  · rw [UInt32.toNat_ofNatClamp_of_lt fits, Nat.min_eq_left (Nat.le_sub_one_of_lt fits)]
  · have beyond : UInt32.size ≤ n := Nat.le_of_not_lt fits
    have full : UInt32.size - 1 ≤ n := Nat.le_trans (Nat.sub_le _ _) beyond
    rw [UInt32.toNat_ofNatClamp_of_le beyond, Nat.min_eq_right full]

theorem toNat_saturatingMul (a b : UInt32) :
    (saturatingMul a b).toNat = min (a.toNat * b.toNat) (UInt32.size - 1) := toNat_clamp _

theorem toNat_saturatingAdd (a b : UInt32) :
    (saturatingAdd a b).toNat = min (a.toNat + b.toNat) (UInt32.size - 1) := toNat_clamp _

theorem lt_of_digitIn {base : Nat} (h : digitIn base c = some d) : d < base :=
  of_decide_eq_true (Option.filter_eq_some_iff.1 h).2

theorem toNat_pushDigit (digit : digitIn base.toNat c = some d) : (pushDigit base code c).toNat =
    min (min (code.toNat * base.toNat) (UInt32.size - 1) + d) (UInt32.size - 1) := by
  have small : d < UInt32.size := Nat.lt_trans (lt_of_digitIn digit) base.toNat_lt
  have pushed : pushDigit base code c = saturatingAdd (saturatingMul code base) (.ofNat d) := by
    rw [pushDigit, digit]
  rw [pushed, toNat_saturatingAdd, toNat_saturatingMul, UInt32.toNat_ofNat_of_lt' small]

theorem pushDigit_of_no_digit (other : digitIn base.toNat c = none) :
    pushDigit base code c = code := by
  rw [pushDigit, other]

/-- The word is the number, or the largest word where the number takes more than 32 bits. -/
def KeepsUp (code : UInt32) (n : Nat) : Prop := code.toNat = min n (UInt32.size - 1)

/-- A digit behind the word is one behind the number. -/
theorem KeepsUp.push (h : KeepsUp code n) (digit : digitIn base.toNat c = some d) :
    KeepsUp (pushDigit base code c) (n * base.toNat + d) := by
  rw [KeepsUp, toNat_pushDigit digit, h]
  by_cases fits : n ≤ UInt32.size - 1
  · rw [Nat.min_eq_left fits]
    omega
  · -- A base with a digit is no less than one, and a full word times it is full again.
    have full : UInt32.size - 1 ≤ n := Nat.le_of_not_le fits
    have more : UInt32.size - 1 ≤ (UInt32.size - 1) * base.toNat :=
      Nat.le_mul_of_pos_right _ (Nat.zero_lt_of_lt (lt_of_digitIn digit))
    have beyond : (UInt32.size - 1) * base.toNat ≤ n * base.toNat := Nat.mul_le_mul_right _ full
    rw [Nat.min_eq_right full]
    omega

/-- The word keeps up over any text, whatever stands between the digits. -/
theorem KeepsUp.run (h : KeepsUp code n) (cs : List Char) :
    KeepsUp (cs.foldl (pushDigit base) code)
      ((cs.filterMap (digitIn base.toNat)).foldl (fun n d => n * base.toNat + d) n) := by
  induction cs generalizing code n with
  | nil => exact h
  | cons c cs ih =>
    cases digit : digitIn base.toNat c with
    | none =>
      rw [List.filterMap_cons_none digit, List.foldl_cons, pushDigit_of_no_digit digit]
      exact ih h
    | some d =>
      rw [List.filterMap_cons_some digit, List.foldl_cons, List.foldl_cons]
      exact ih (h.push digit)

theorem toNat_codeIn (base : UInt32) (cs : List Char) :
    (codeIn base cs).toNat = min (valueIn base.toNat cs) (UInt32.size - 1) := by
  have start : KeepsUp 0 0 := rfl
  exact start.run cs

theorem charOfCode_of_le (h : 0x110000 ≤ n) : charOfCode n = '\uFFFD' := by
  have invalid : ¬ n.isValidChar := by
    rw [Nat.isValidChar]
    omega
  rw [charOfCode, if_neg invalid]

/-- Neither a full word nor what would take more than a word is the code of a character. -/
theorem charOfCode_codeIn (base : UInt32) (cs : List Char) :
    charOfCode (codeIn base cs).toNat = charOfCode (valueIn base.toNat cs) := by
  rw [toNat_codeIn]
  by_cases fits : valueIn base.toNat cs ≤ UInt32.size - 1
  · rw [Nat.min_eq_left fits]
  · have full : UInt32.size - 1 ≤ valueIn base.toNat cs := Nat.le_of_not_le fits
    have range : 0x110000 ≤ UInt32.size - 1 := by decide
    rw [Nat.min_eq_right full, charOfCode_of_le range, charOfCode_of_le (Nat.le_trans range full)]

namespace Escape

inductive HasBase : (make : List Char → Bool → Escape) → (base : Nat) → Prop
  | octal : HasBase .octal 8
  | hex : HasBase .hex 16

theorem meaning_code {make : List Char → Bool → Escape} {base : Nat} (h : HasBase make base)
    (body : List Char) (closed : Bool) :
    (make body closed).meaning = some (charOfCode (valueIn base body)) := by
  cases h with
  | octal => exact congrArg some (charOfCode_codeIn 8 body)
  | hex => exact congrArg some (charOfCode_codeIn 16 body)

/-! The extent of a code. -/

variable {cs body rest : List Char} {closed : Bool}

/-- A code ends at the first backslash. -/
theorem readCode_append (make : List Char → Bool → Escape) {digits : List Char}
    (inside : '\\' ∉ digits) (rest : List Char) :
    readCode make (digits ++ '\\' :: rest) = (make digits true, rest) := by
  obtain ⟨run, left⟩ := takeWhile_ne_run (t := '\\' :: rest) inside (by simp)
  rw [readCode, left, run]

/-- The first backslash of the text `cs` closes its code `body`, and `rest` is what stands behind.
In a text without one the code is not closed, and nothing stands behind it. -/
inductive IsCut : (cs body : List Char) → (closed : Bool) → (rest : List Char) → Prop
  | closed {body rest : List Char} : '\\' ∉ body → IsCut (body ++ '\\' :: rest) body true rest
  | unclosed {body : List Char} : '\\' ∉ body → IsCut body body false []

theorem exists_isCut (cs : List Char) : ∃ body closed rest, IsCut cs body closed rest := by
  by_cases backslash : '\\' ∈ cs
  · obtain ⟨body, rest, rfl, inside⟩ := List.eq_append_cons_of_mem backslash
    exact ⟨body, true, rest, .closed inside⟩
  · exact ⟨cs, false, [], .unclosed backslash⟩

theorem readCode_of_not_mem (make : List Char → Bool → Escape) (inside : '\\' ∉ body) :
    readCode make body = (make body false, []) := by
  have stop : ∀ d ∈ ([] : List Char).head?, d = '\\' := nofun
  have left := (takeWhile_ne_run inside stop).2
  rw [List.append_nil] at left
  rw [readCode, left]

theorem IsCut.readCode_eq (h : IsCut cs body closed rest) (make : List Char → Bool → Escape) :
    readCode make cs = (make body closed, rest) := by
  cases h with
  | closed inside => exact readCode_append make inside rest
  | unclosed inside => exact readCode_of_not_mem make inside

end Escape
end PrologSource
