/-!
# Numerals

Counts are whole numbers below `2 ^ 64`. `digits?` reads the digits of one radix, at least one of
them and nothing else; `count?` is the decimal form that environment variables and command-line
options use, where one plus sign may stand in front.
-/
namespace SchemaHerald.Text

/-- Counts are below this bound, two to the power of 64. -/
def countBound : Nat := 0x10000000000000000

/-- The value of an ASCII digit or letter as a digit, `a` and `A` standing for ten. -/
def digitValue? (c : Char) : Option Nat :=
  if '0' ≤ c ∧ c ≤ '9' then some (c.toNat - 48)
  else if 'a' ≤ c ∧ c ≤ 'z' then some (c.toNat - 87)
  else if 'A' ≤ c ∧ c ≤ 'Z' then some (c.toNat - 55)
  else none

/-- The value of a character as a digit of the given radix. -/
def digitOf? (radix : Nat) (c : Char) : Option Nat :=
  (digitValue? c).filter (· < radix)

/-- Adds the digits that follow to the value read so far; fails on any other character. -/
def digitsFrom? (radix : Nat) : Nat → List Char → Option Nat
  | value, [] => some value
  | value, c :: rest => do
    let d ← digitOf? radix c
    digitsFrom? radix (value * radix + d) rest

/-- The number that a non-empty run of digits stands for. -/
def digits? (radix : Nat) (cs : List Char) : Option Nat :=
  if cs.isEmpty then none else digitsFrom? radix 0 cs

/-- A text without one plus sign in front. -/
def dropPlus : List Char → List Char
  | '+' :: rest => rest
  | cs => cs

/-- **Reading a count**: decimal digits, after at most one plus sign, for a number below
`countBound`. -/
def count? (s : String) : Option Nat :=
  (digits? 10 (dropPlus s.toList)).filter (· < countBound)

end SchemaHerald.Text
