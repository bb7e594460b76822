namespace PrologSource

def digitValue (c : Char) : Option Nat :=
  if '0' ≤ c ∧ c ≤ '9' then some (c.toNat - 48)
  else if 'a' ≤ c ∧ c ≤ 'z' then some (c.toNat - 87)
  else if 'A' ≤ c ∧ c ≤ 'Z' then some (c.toNat - 55)
  else none

def digitIn (base : Nat) (c : Char) : Option Nat := (digitValue c).filter (· < base)

def isDigitIn (base : Nat) (c : Char) : Bool := (digitIn base c).isSome

/-- The number that the digits of `base` among `cs` spell; other characters do not count. -/
def valueIn (base : Nat) (cs : List Char) : Nat :=
  (cs.filterMap (digitIn base)).foldl (fun n d => n * base + d) 0

/-- The product of two words of 32 bits, or the largest word where the product takes more. -/
def saturatingMul (a b : UInt32) : UInt32 := .ofNatClamp (a.toNat * b.toNat)

def saturatingAdd (a b : UInt32) : UInt32 := .ofNatClamp (a.toNat + b.toNat)

def pushDigit (base code : UInt32) (c : Char) : UInt32 :=
  match digitIn base.toNat c with
  | some d => saturatingAdd (saturatingMul code base) (.ofNat d)
  | none => code

/-- The code that the digits of `base` among `cs` spell, summed up within 32 bits. -/
def codeIn (base : UInt32) (cs : List Char) : UInt32 := cs.foldl (pushDigit base) 0

def charOfCode (n : Nat) : Char := if n.isValidChar then Char.ofNat n else '\uFFFD'

def decimal (n : Nat) : List Char := Nat.toDigits 10 n

def signedDecimal : Int → List Char
  | .ofNat n => decimal n
  | .negSucc n => '-' :: decimal (n + 1)

end PrologSource
