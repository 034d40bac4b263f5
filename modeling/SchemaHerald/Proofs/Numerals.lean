import Mathlib.Data.List.Basic
import SchemaHerald.Text.Numeral

/-!
# What counts look like

`Denotes` says of a text which count it stands for, without reading it: decimal digits, at least one
of them, after at most one plus sign, for a number below the bound. `count?_eq_some_iff` shows that
reading gives exactly this number and refuses every other text.
-/
namespace SchemaHerald.Text

/-- Whether a character is a decimal digit. -/
def IsDecimal (c : Char) : Prop := '0' ≤ c ∧ c ≤ '9'

/-- **A text that stands for a count**: decimal digits after at most one plus sign. -/
def Denotes (s : String) (n : Nat) : Prop :=
  ∃ digits : List Char, (s.toList = digits ∨ s.toList = '+' :: digits) ∧
    digits ≠ [] ∧ (∀ c ∈ digits, IsDecimal c) ∧ Nat.ofDigitChars 10 digits 0 = n ∧ n < UInt64.size

/-- A decimal digit is at most the ninth character after the one for zero. -/
theorem toNat_of_isDecimal {c : Char} (h : IsDecimal c) : 48 ≤ c.toNat ∧ c.toNat ≤ 57 :=
  ⟨h.1, h.2⟩

/-- **Decimal digits**: they have the value of their place, and nothing else is one. -/
theorem digitOf?_eq_some_iff {c : Char} {d : Nat} :
    digitOf? 10 c = some d ↔ IsDecimal c ∧ d = c.toNat - 48 := by
  constructor
  · intro h
    obtain ⟨hvalue, hlt⟩ := Option.filter_eq_some_iff.1 h
    have hd : d < 10 := of_decide_eq_true hlt
    unfold digitValue? at hvalue
    split at hvalue
    · rename_i hc
      exact ⟨hc, (Option.some.inj hvalue).symm⟩
    · -- a letter stands for ten at least
      split at hvalue
      · rename_i hc
        have hval : c.toNat - 87 = d := Option.some.inj hvalue
        have hlow : 97 ≤ c.toNat := hc.1
        omega
      · split at hvalue
        · rename_i hc
          have hval : c.toNat - 55 = d := Option.some.inj hvalue
          have hlow : 65 ≤ c.toNat := hc.1
          omega
        · cases hvalue
  · rintro ⟨hc, rfl⟩
    obtain ⟨hlow, hhigh⟩ := toNat_of_isDecimal hc
    have hvalue : digitValue? c = some (c.toNat - 48) := if_pos hc
    rw [digitOf?, hvalue, Option.filter_some_pos]
    exact decide_eq_true (by omega)

/-- Reading goes on as long as there are digits, each one worth a tenth of the one before it. -/
theorem digitsFrom?_eq_some_iff {cs : List Char} {value n : Nat} :
    digitsFrom? 10 value cs = some n ↔
      (∀ c ∈ cs, IsDecimal c) ∧ Nat.ofDigitChars 10 cs value = n := by
  induction cs generalizing value with
  | nil => simp [digitsFrom?, Nat.ofDigitChars]
  | cons c rest ih =>
    have hstep : Nat.ofDigitChars 10 (c :: rest) value =
        Nat.ofDigitChars 10 rest (value * 10 + (c.toNat - 48)) := by
      rw [Nat.ofDigitChars_cons, Nat.mul_comm]
      rfl
    simp only [digitsFrom?, Option.bind_eq_bind, Option.bind_eq_some_iff, digitOf?_eq_some_iff, ih]
    rw [hstep]
    constructor
    · rintro ⟨d, ⟨hc, rfl⟩, hrest, hn⟩
      exact ⟨List.forall_mem_cons.2 ⟨hc, hrest⟩, hn⟩
    · rintro ⟨hall, hn⟩
      obtain ⟨hc, hrest⟩ := List.forall_mem_cons.1 hall
      exact ⟨_, ⟨hc, rfl⟩, hrest, hn⟩

theorem digits?_eq_some_iff {cs : List Char} {n : Nat} :
    digits? 10 cs = some n ↔
      cs ≠ [] ∧ (∀ c ∈ cs, IsDecimal c) ∧ Nat.ofDigitChars 10 cs 0 = n := by
  by_cases h : cs = []
  · simp [digits?, h]
  · simp [digits?, h, digitsFrom?_eq_some_iff]

/-- A text either starts with a plus sign, and then it is the rest that is read, or is read
whole. -/
theorem dropPlus_cases (cs : List Char) :
    cs = '+' :: dropPlus cs ∨ dropPlus cs = cs ∧ ∀ rest, cs ≠ '+' :: rest := by
  unfold dropPlus
  split
  · exact .inl rfl
  · rename_i h
    exact .inr ⟨rfl, h⟩

/-- **Reading a count** gives what the text stands for, and only such texts are read. -/
theorem count?_eq_some_iff {s : String} {n : Nat} : count? s = some n ↔ Denotes s n := by
  have hread : count? s = some n ↔ digits? 10 (dropPlus s.toList) = some n ∧ n < UInt64.size := by
    rw [count?, Option.filter_eq_some_iff, decide_eq_true_iff]
    rfl
  rw [hread, digits?_eq_some_iff]
  constructor
  · rintro ⟨⟨hne, hall, hn⟩, hlt⟩
    refine ⟨dropPlus s.toList, ?_, hne, hall, hn, hlt⟩
    rcases dropPlus_cases s.toList with h | ⟨h, -⟩
    · exact .inr h
    · exact .inl h.symm
  · rintro ⟨digits, hs, hne, hall, hn, hlt⟩
    have hdrop : dropPlus s.toList = digits := by
      rcases hs with hs | hs
      · rcases dropPlus_cases s.toList with h | ⟨h, -⟩
        · -- a plus sign is not a digit
          have hplus : IsDecimal '+' := hall '+' (by rw [← hs, h]; exact List.mem_cons_self ..)
          exact absurd hplus (by unfold IsDecimal; decide)
        · rw [h, hs]
      · rw [hs]
        rfl
    rw [hdrop]
    exact ⟨⟨hne, hall, hn⟩, hlt⟩

end SchemaHerald.Text
