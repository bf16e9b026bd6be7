/-!
# Decimal digits and numerals

A decimal digit is a character of a Unicode decade: ten code points in a row, for zero to nine
(Unicode 14). `numeralValue` reads a run of such digits, whatever scripts it mixes.
`readNumeral?` refuses numerals that are too long to be converted.
-/

namespace DependencyClause.Text

/-- The code points of the digits for zero. -/
def decimalZeros : List Nat :=
  [0x30, 0x660, 0x6F0, 0x7C0, 0x966, 0x9E6, 0xA66, 0xAE6, 0xB66, 0xBE6, 0xC66, 0xCE6, 0xD66, 0xDE6,
   0xE50, 0xED0, 0xF20, 0x1040, 0x1090, 0x17E0, 0x1810, 0x1946, 0x19D0, 0x1A80, 0x1A90, 0x1B50,
   0x1BB0, 0x1C40, 0x1C50, 0xA620, 0xA8D0, 0xA900, 0xA9D0, 0xA9F0, 0xAA50, 0xABF0, 0xFF10, 0x104A0,
   0x10D30, 0x11066, 0x110F0, 0x11136, 0x111D0, 0x112F0, 0x11450, 0x114D0, 0x11650, 0x116C0,
   0x11730, 0x118E0, 0x11950, 0x11C50, 0x11D50, 0x11DA0, 0x16A60, 0x16AC0, 0x16B50, 0x1D7CE,
   0x1D7D8, 0x1D7E2, 0x1D7EC, 0x1D7F6, 0x1E140, 0x1E2F0, 0x1E950, 0x1FBF0]

/-- The value of a decimal digit. -/
def digitValue? (c : Char) : Option Nat :=
  (decimalZeros.find? fun z => z ≤ c.toNat && c.toNat ≤ z + 9).map (c.toNat - ·)

/-- Whether the character is a decimal digit of some script. -/
def isDigit (c : Char) : Bool := (digitValue? c).isSome

/-- The value of a digit run read in base ten. -/
def numeralValue (t : List Char) : Nat :=
  t.foldl (fun n c => 10 * n + (digitValue? c).getD 0) 0

/-- The greatest number of digits that a numeral may have, leading zeros included. -/
def maxDigits : Nat := 4300

/-- The value of a digit run, unless it has more than `maxDigits` digits. -/
def readNumeral? (t : List Char) : Option Nat :=
  if t.length ≤ maxDigits then some (numeralValue t) else none

/-- The ASCII digits of a number, without leading zeros. -/
def decimal (n : Nat) : List Char := Nat.toDigits 10 n

/-- Whether a digit run starts with an ASCII zero that it does not need. -/
def hasSpareZero (t : List Char) : Bool := t.head? == some '0' && t != ['0']

/-- The digit run without the ASCII zeros that it does not need. -/
def stripZeros (t : List Char) : List Char :=
  match t.dropWhile (· == '0') with
  | [] => ['0']
  | d :: r => d :: r

theorem digitValue?_eq_some_iff {c : Char} {d : Nat} :
    digitValue? c = some d ↔
      ∃ z, decimalZeros.find? (fun z => z ≤ c.toNat && c.toNat ≤ z + 9) = some z ∧
        c.toNat = z + d := by
  simp only [digitValue?, Option.map_eq_some_iff]
  constructor
  · rintro ⟨z, hz, rfl⟩
    have := List.find?_some hz
    simp only [Bool.and_eq_true, decide_eq_true_eq] at this
    exact ⟨z, hz, by omega⟩
  · rintro ⟨z, hz, h⟩
    exact ⟨z, hz, by omega⟩

theorem digitValue?_lt_ten {c : Char} {d : Nat} (h : digitValue? c = some d) : d < 10 := by
  obtain ⟨z, hz, he⟩ := digitValue?_eq_some_iff.1 h
  have := List.find?_some hz
  simp only [Bool.and_eq_true, decide_eq_true_eq] at this
  omega

/-- Every ASCII digit is a decimal digit. -/
theorem isDigit_of_asciiDigit {c : Char} (h : c.isDigit = true) : isDigit c = true := by
  simp only [Char.isDigit, Bool.and_eq_true, decide_eq_true_eq] at h
  have h₁ : 48 ≤ c.toNat := h.1
  have h₂ : c.toNat ≤ 57 := h.2
  simp [isDigit, digitValue?, decimalZeros, h₁, h₂]

end DependencyClause.Text
