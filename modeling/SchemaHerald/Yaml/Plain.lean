import SchemaHerald.Text.Numeral

/-!
# What plain scalars stand for

A scalar without quotes may stand for null, for a truth value or for a number; any other one stands
for its text. `count?` reads the numbers that settings hold. `isText` says which texts may be
written without quotes because nothing else would be read from them.

A numeral of decimal digits that starts with a zero, such as `007`, is a text.
-/
namespace SchemaHerald.Yaml.Plain

/-- Whether a scalar stands for null. -/
def isNull (s : String) : Bool := ["~", "null", "Null", "NULL"].contains s

/-- Whether a scalar stands for a truth value. -/
def isBool (s : String) : Bool := ["true", "True", "TRUE", "false", "False", "FALSE"].contains s

/-- A text without one sign in front. -/
def dropSign : List Char → List Char
  | '+' :: rest | '-' :: rest => rest
  | cs => cs

/-- Whether a scalar has decimal digits only, after at most one sign, and starts with a zero that is
not its only digit. -/
def isPadded (cs : List Char) : Bool :=
  match dropSign cs with
  | '0' :: d :: rest => (d :: rest).all Char.isDigit
  | _ => false

/-- The magnitude of a numeral that names its radix. -/
def radix? : List Char → Option Nat
  | '0' :: 'x' :: rest => Text.digits? 16 rest
  | '0' :: 'o' :: rest => Text.digits? 8 rest
  | '0' :: 'b' :: rest => Text.digits? 2 rest
  | _ => none

/-- **The count that a scalar stands for**: a numeral without a minus sign, for a number below
`Text.countBound`. -/
def count? (s : String) : Option Nat :=
  let cs := s.toList
  let digits := Text.dropPlus cs
  ((radix? digits).or (if isPadded cs then none else Text.digits? 10 digits)).filter
    (· < Text.countBound)

/-! ## Decimal fractions -/

/-- A numeral with a point or an exponent, taken apart. -/
structure Fraction where
  /-- The digits before and after the point, without the point. -/
  digits : List Char
  /-- The power of ten that the digits as a whole number are multiplied with. -/
  scale : Int
deriving DecidableEq, Repr

/-- The exponent at the end of a numeral. -/
def exponent? : List Char → Option Int
  | [] => some 0
  | e :: rest =>
    if e == 'e' || e == 'E' then
      match rest with
      | '-' :: digits => (Text.digits? 10 digits).map fun n => -(n : Int)
      | digits => (Text.digits? 10 (Text.dropPlus digits)).map Int.ofNat
    else none

/-- Takes a numeral without a sign apart. It needs a digit before or after the point. -/
def fraction? (cs : List Char) : Option Fraction := do
  let whole := cs.takeWhile Char.isDigit
  let rest := cs.dropWhile Char.isDigit
  let (part, tail) := match rest with
    | '.' :: rest => (rest.takeWhile Char.isDigit, rest.dropWhile Char.isDigit)
    | _ => ([], rest)
  if whole.isEmpty && part.isEmpty then none
  else
    let exponent ← exponent? tail
    return ⟨whole ++ part, exponent - part.length⟩

/-- From here on a number is too large for a double-precision float, even after rounding. -/
def floatBound : Nat := 1 <<< 1024 - 1 <<< 970

/-- The number of decimal digits of `floatBound`. -/
def floatDigits : Int := 309

/-- Whether a numeral is within the range of double-precision floats. -/
def Fraction.isFinite (f : Fraction) : Bool :=
  let digits := f.digits.dropWhile (· == '0')
  let places := digits.length + f.scale
  let n := (Text.digits? 10 digits).getD 0
  digits.isEmpty || places < floatDigits ||
    (places == floatDigits &&
      n * Nat.pow 10 f.scale.toNat < floatBound * Nat.pow 10 (-f.scale).toNat)

/-- Whether a scalar names an infinity or no number. -/
def isSpecial (s : String) : Bool :=
  [".inf", ".Inf", ".INF", "+.inf", "+.Inf", "+.INF", "-.inf", "-.Inf", "-.INF",
    ".nan", ".NaN", ".NAN"].contains s

/-- Whether a scalar with a radix stands for a number of at most 128 bits, with a sign if it is
negative. -/
def isRadixNumber (cs : List Char) : Bool :=
  match cs with
  | '-' :: rest => (radix? rest).any (· ≤ 1 <<< 127)
  | _ => (radix? (Text.dropPlus cs)).any (· < 1 <<< 128)

/-- Whether a scalar stands for a number. -/
def isNumber (s : String) : Bool :=
  let cs := s.toList
  isSpecial s || isRadixNumber cs ||
    (!isPadded cs && (fraction? (dropSign cs)).any Fraction.isFinite)

/-- **Whether a scalar stands for its own text** and looks like nothing else. -/
def isText (s : String) : Bool :=
  !(s.isEmpty || isNull s || isBool s || isNumber s || isPadded s.toList)

end SchemaHerald.Yaml.Plain
