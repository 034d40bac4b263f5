/-!
# Raw texts

Arguments and paths come in octets, and nothing makes sure that these are UTF-8. `Raw` are such
octets. Every text is written in octets, and can be read back from these and from no others
(`text?_eq_some_iff`). To be shown, what is no UTF-8 gives way to replacement characters, one for each
longest piece that begins as a character does.
-/
namespace SchemaHerald.Text

/-- **A raw text**: octets that may be UTF-8. -/
structure Raw where
  /-- The octets. -/
  octets : List UInt8
deriving DecidableEq, Repr, Inhabited

namespace Raw

/-- A text in octets. -/
def ofText (s : String) : Raw := ⟨s.toUTF8.data.toList⟩

instance : Coe String Raw := ⟨ofText⟩

instance : Coe (List String) (List Raw) := ⟨List.map ofText⟩

instance : Append Raw := ⟨fun r s => ⟨r.octets ++ s.octets⟩⟩

variable (r : Raw)

/-- Whether there is nothing in it. -/
def isEmpty : Bool := r.octets.isEmpty

/-- The text that the octets spell, if they are UTF-8. -/
def text? : Option String := String.fromUTF8? ⟨r.octets.toArray⟩

/-- **Octets are a text** if that text is written in them. -/
theorem text?_eq_some_iff {r : Raw} {s : String} : r.text? = some s ↔ r = ofText s := by
  constructor
  · intro h
    unfold text? String.fromUTF8? at h
    split at h
    · cases h
      rfl
    · cases h
  · rintro rfl
    exact dif_pos s.isValidUTF8

/-! ## Showing octets -/

/-- The least and the greatest octet that goes on with a character, where nothing more is asked. -/
def tail : UInt8 × UInt8 := (0x80, 0xbf)

/-- What has to come after the first octet of a character, one range of octets after the other. -/
def tails (first : UInt8) : List (UInt8 × UInt8) :=
  if first < 0xc2 then []
  else if first < 0xe0 then [tail]
  else if first == 0xe0 then [(0xa0, 0xbf), tail]
  else if first == 0xed then [(0x80, 0x9f), tail]
  else if first < 0xf0 then [tail, tail]
  else if first == 0xf0 then [(0x90, 0xbf), tail, tail]
  else if first < 0xf4 then [tail, tail, tail]
  else if first == 0xf4 then [(0x80, 0x8f), tail, tail]
  else []

/-- Cuts octets into characters and the longest pieces that begin as characters do, where `piece` may
go on with octets in some ranges. -/
def pieces (piece : List UInt8) : List (UInt8 × UInt8) → List UInt8 → List Raw
  | _, [] => [⟨piece⟩]
  | [], octet :: rest => ⟨piece⟩ :: pieces [octet] (tails octet) rest
  | (least, greatest) :: more, octet :: rest =>
    if least ≤ octet && octet ≤ greatest then pieces (piece ++ [octet]) more rest
    else ⟨piece⟩ :: pieces [octet] (tails octet) rest

/-- **What is shown** of a raw text. -/
def shown : String :=
  String.join ((pieces [] [] r.octets).map fun piece => piece.text?.getD "\uFFFD")

example : (ofText "café/" ++ ⟨[0x61, 0xf0, 0x9f, 0x92, 0x2f, 0xff, 0xc3]⟩).shown =
    "café/a\uFFFD/\uFFFD\uFFFD" := by
  decide +kernel

end Raw
end SchemaHerald.Text
