/-!
# Random identifiers

A random identifier is made of sixteen octets, of which six bits are fixed: four say that it is
random and two say by which rules it is written. It is written as hexadecimal digits in five groups.
-/
namespace SchemaHerald.Text.Uuid

/-- An octet as two hexadecimal digits. -/
def octetText (n : Nat) : List Char := [Nat.digitChar (n / 16 % 16), Nat.digitChar (n % 16)]

/-- The octets with the fixed bits set. -/
def mark (octets : List Nat) : List Nat :=
  (octets.modify 6 (64 + · % 16)).modify 8 (128 + · % 64)

/-- The groups of octets that are written together. -/
def groups (octets : List Nat) : List (List Nat) :=
  [octets.take 4, (octets.drop 4).take 2, (octets.drop 6).take 2, (octets.drop 8).take 2,
    octets.drop 10]

/-- **The text of a random identifier** with the given octets. -/
def text (octets : List Nat) : String :=
  "-".intercalate ((groups (mark octets)).map fun group => String.ofList (group.flatMap octetText))

end SchemaHerald.Text.Uuid
