import SchemaHerald.Text.Numeral

/-!
# Value trees

The data that schemas carry along and the form in which settings, records and definitions are
exchanged: null, truth values, numbers, texts, lists and records of named fields. A number keeps its
decimal digits, so that a value that is only passed on comes out as it went in.
-/
namespace SchemaHerald

/-- The number `mantissa / 10 ^ exponent`. -/
structure Decimal where
  /-- The digits, with the sign. -/
  mantissa : Int
  /-- How many of the digits stand behind the point. -/
  exponent : Nat
deriving DecidableEq, Repr, Inhabited

/-- A tree of data without a fixed shape. -/
inductive Value
  /-- No value. -/
  | null
  /-- A truth value. -/
  | bool (b : Bool)
  /-- A number. -/
  | number (n : Decimal)
  /-- A text. -/
  | text (s : String)
  /-- Values in order. -/
  | list (xs : List Value)
  /-- Named fields in order. -/
  | record (fields : List (String × Value))
deriving Repr, Inhabited

namespace Value

/-- A whole number as a value. -/
def ofNat (n : Nat) : Value := .number ⟨n, 0⟩

/-- The text that a value is, if it is one. -/
def text? : Value → Option String
  | .text s => some s
  | _ => none

/-- The count that a value is, if it is one without digits behind the point. -/
def count? : Value → Option Nat
  | .number ⟨.ofNat n, 0⟩ => if n < Text.countBound then some n else none
  | _ => none

end Value
end SchemaHerald
