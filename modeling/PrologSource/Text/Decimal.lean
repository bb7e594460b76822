import PrologSource.CharClass
import PrologSource.Radix

namespace PrologSource

def wordBound : Nat := 18446744073709551616

def integerBound : Nat := 9223372036854775808

def IsDecimal (cs : List Char) : Prop := cs ≠ [] ∧ ∀ c ∈ cs, isDigit c

instance (cs : List Char) : Decidable (IsDecimal cs) :=
  decidable_of_iff (!cs.isEmpty && cs.all isDigit) (by simp [IsDecimal])

def word? (digits : List Char) : Option Nat :=
  if valueIn 10 digits < wordBound then some (valueIn 10 digits) else none

/-- The digits at the front of a text, of which there is at least one, and the text after them. -/
def digits? (cs : List Char) : Option (List Char × List Char) :=
  if cs.takeWhile isDigit = [] then none else some (cs.takeWhile isDigit, cs.dropWhile isDigit)

def digitRange? (cs : List Char) : Option ((List Char × List Char) × List Char) := do
  let (first, cs) ← digits? cs
  let (last, cs) ← digits? (← ['-'].isPrefixOf? cs)
  return ((first, last), cs)

inductive IntegerFault
  | empty | invalidDigit | tooLarge | tooSmall
  deriving DecidableEq, Repr

def IntegerFault.name : IntegerFault → String
  | .empty => "Empty"
  | .invalidDigit => "InvalidDigit"
  | .tooLarge => "PosOverflow"
  | .tooSmall => "NegOverflow"

/-- Reads digits behind the number `n`. The first digit that is wrong or goes beyond the bound
decides the fault. -/
def readDigits (bound : Nat) (beyond : IntegerFault) : Nat → List Char → Except IntegerFault Nat
  | n, [] => .ok n
  | n, c :: rest =>
    match digitIn 10 c with
    | none => .error .invalidDigit
    | some d =>
      if n * 10 + d ≤ bound then readDigits bound beyond (n * 10 + d) rest else .error beyond

def readInteger : List Char → Except IntegerFault Int
  | [] => .error .empty
  | c :: rest =>
    if (c = '+' ∨ c = '-') ∧ rest = [] then .error .invalidDigit
    else if c = '-' then (readDigits integerBound .tooSmall 0 rest).map fun n => -(n : Int)
    else
      (readDigits (integerBound - 1) .tooLarge 0 (if c = '+' then rest else c :: rest)).map
        fun n => (n : Int)

end PrologSource
