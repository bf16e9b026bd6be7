import DependencyClause.Text.Digit

/-!
# Numerals in decimal

A number is read back from its decimal digits, which start with a zero only if the number is zero,
and no other run of ASCII digits without a spare zero has its value. A numeral of any script is as
long as the decimal digits of its value at least, so a numeral that is short enough to be converted
has a value that is short enough too.
-/

namespace DependencyClause.Text

/-- The value of an ASCII digit is its distance from the digit for zero. -/
theorem digitValue?_of_asciiDigit {c : Char} (h : c.isDigit = true) :
    digitValue? c = some (c.toNat - '0'.toNat) := by
  simp only [Char.isDigit, Bool.and_eq_true, decide_eq_true_eq] at h
  have h₁ : 48 ≤ c.toNat := h.1
  have h₂ : c.toNat ≤ 57 := h.2
  simp [digitValue?, decimalZeros, h₁, h₂]

theorem isDigit_of_mem_decimal {n : Nat} {c : Char} (h : c ∈ decimal n) : c.isDigit = true :=
  Nat.isDigit_of_mem_toDigits (by omega) (by omega) h

theorem decimal_ne_nil (n : Nat) : decimal n ≠ [] := Nat.toDigits_ne_nil

/-- A run of ASCII digits is read as core reads it. -/
private theorem foldl_digitValue? {t : List Char} (h : ∀ c ∈ t, c.isDigit = true) (n : Nat) :
    t.foldl (fun n c => 10 * n + (digitValue? c).getD 0) n = Nat.ofDigitChars 10 t n := by
  induction t generalizing n with
  | nil => rfl
  | cons c t ih =>
    obtain ⟨hc, ht⟩ := List.forall_mem_cons.mp h
    rw [List.foldl_cons, Nat.ofDigitChars_cons, ih ht, digitValue?_of_asciiDigit hc]
    rfl

/-- A number is the value of its decimal digits. -/
theorem numeralValue_decimal (n : Nat) : numeralValue (decimal n) = n := by
  rw [numeralValue, foldl_digitValue? fun c hc => isDigit_of_mem_decimal hc]
  exact Nat.ofDigitChars_ten_toDigits

/-- Every character of a numeral makes its value ten times greater, and less than one more ten. -/
private theorem foldl_digitValue?_lt (t : List Char) (n : Nat) :
    t.foldl (fun n c => 10 * n + (digitValue? c).getD 0) n < (n + 1) * Nat.pow 10 t.length := by
  induction t generalizing n with
  | nil => simp
  | cons c t ih =>
    have hd : (digitValue? c).getD 0 < 10 := by
      cases hv : digitValue? c with
      | none => simp
      | some d => exact digitValue?_lt_ten hv
    have hle : 10 * n + (digitValue? c).getD 0 + 1 ≤ (n + 1) * 10 := by omega
    calc
      _ < (10 * n + (digitValue? c).getD 0 + 1) * Nat.pow 10 t.length := ih _
      _ ≤ (n + 1) * 10 * Nat.pow 10 t.length := Nat.mul_le_mul_right _ hle
      _ = (n + 1) * (Nat.pow 10 t.length * 10) := by rw [Nat.mul_assoc, Nat.mul_comm 10]
      _ = (n + 1) * Nat.pow 10 (c :: t).length := rfl

/-- The value of a numeral has no more decimal digits than the numeral. -/
theorem length_decimal_numeralValue_le {t : List Char} {k : Nat} (hk : 0 < k)
    (h : t.length ≤ k) : (decimal (numeralValue t)).length ≤ k := by
  have hlt := foldl_digitValue?_lt t 0
  rw [Nat.zero_add, Nat.one_mul] at hlt
  refine (Nat.length_toDigits_le_iff (by omega) hk).mpr ?_
  exact Nat.lt_of_lt_of_le hlt (Nat.pow_le_pow_right (by omega) h)

/-- Only zero is written with a zero in front. -/
theorem head?_decimal_ne_zero {n : Nat} (hn : 0 < n) : (decimal n).head? ≠ some '0' := by
  induction n using Nat.strongRecOn with
  | _ n ih =>
    by_cases hlt : n < 10
    · have hall : ∀ n < 10, 0 < n → Nat.digitChar n ≠ '0' := by decide
      rw [decimal, Nat.toDigits_of_lt_base hlt]
      intro h
      exact hall n hlt hn (Option.some.inj h)
    · have hpos : 0 < n / 10 := by omega
      have hsplit : decimal n = decimal (n / 10) ++ decimal (n % 10) := by
        rw [decimal, decimal, decimal, Nat.toDigits_append_toDigits (by omega) hpos (by omega),
          Nat.div_add_mod]
      obtain ⟨x, t, ht⟩ := List.exists_cons_of_ne_nil (decimal_ne_nil (n / 10))
      have hx := ih (n / 10) (by omega) hpos
      rw [ht] at hx
      rwa [hsplit, ht]

/-- The decimal digits of a number start with no spare zero. -/
theorem hasSpareZero_decimal (n : Nat) : hasSpareZero (decimal n) = false := by
  rcases Nat.eq_zero_or_pos n with rfl | hn
  · rfl
  · rw [hasSpareZero, Bool.and_eq_false_iff]
    exact Or.inl (beq_eq_false_iff_ne.mpr (head?_decimal_ne_zero hn))

/-- Every ASCII digit is the digit for a number below ten. -/
theorem exists_eq_digitChar {c : Char} (h : c.isDigit = true) : ∃ d < 10, c = Nat.digitChar d := by
  have hall : ∀ n < 58, (Char.ofNat n).isDigit = true →
      ∃ d < 10, Char.ofNat n = Nat.digitChar d := by decide
  have hlt : c.toNat < 58 := by
    simp only [Char.isDigit, Bool.and_eq_true, decide_eq_true_eq] at h
    have hle : c.toNat ≤ 57 := h.2
    omega
  have hc := hall c.toNat hlt
  rw [Char.ofNat_toNat] at hc
  exact hc h

private theorem digitValue?_digitChar {d : Nat} (hd : d < 10) :
    digitValue? (Nat.digitChar d) = some d := by
  have hall : ∀ d < 10, digitValue? (Nat.digitChar d) = some d := by decide
  exact hall d hd

/-- Digits behind the decimal digits of a number are decimal digits of the number that they lead
to. -/
private theorem decimal_append {t : List Char} (h : ∀ c ∈ t, c.isDigit = true) {n : Nat}
    (hn : 0 < n) :
    decimal n ++ t = decimal (t.foldl (fun n c => 10 * n + (digitValue? c).getD 0) n) := by
  induction t generalizing n with
  | nil => exact List.append_nil _
  | cons c t ih =>
    obtain ⟨hc, ht⟩ := List.forall_mem_cons.mp h
    obtain ⟨d, hd, rfl⟩ := exists_eq_digitChar hc
    have hstep : decimal n ++ [Nat.digitChar d] = decimal (10 * n + d) := by
      rw [decimal, decimal, ← Nat.toDigits_append_toDigits (by omega) hn hd,
        Nat.toDigits_of_lt_base hd]
    rw [List.foldl_cons, digitValue?_digitChar hd, Option.getD_some, ← ih ht (by omega), ← hstep,
      List.append_assoc]
    rfl

/-- A run of ASCII digits without a spare zero in front is what its value is written as. -/
theorem decimal_numeralValue {t : List Char} (hne : t ≠ []) (h : ∀ c ∈ t, c.isDigit = true)
    (hz : hasSpareZero t = false) : decimal (numeralValue t) = t := by
  obtain ⟨c, t, rfl⟩ := List.exists_cons_of_ne_nil hne
  obtain ⟨hc, ht⟩ := List.forall_mem_cons.mp h
  obtain ⟨d, hd, rfl⟩ := exists_eq_digitChar hc
  rcases Nat.eq_zero_or_pos d with rfl | hpos
  · have hnil : t = [] := by simpa [hasSpareZero] using hz
    rw [hnil]
    rfl
  · have hvalue : numeralValue (Nat.digitChar d :: t) =
        t.foldl (fun n c => 10 * n + (digitValue? c).getD 0) d := by
      rw [numeralValue, List.foldl_cons, digitValue?_digitChar hd, Option.getD_some, Nat.mul_zero,
        Nat.zero_add]
    rw [hvalue, ← decimal_append ht hpos, decimal, Nat.toDigits_of_lt_base hd]
    rfl

theorem stripZeros_of_ne {c : Char} (hc : c ≠ '0') (t : List Char) :
    stripZeros (c :: t) = c :: t := by
  rw [stripZeros, List.dropWhile_cons_of_neg (by simpa using hc)]

theorem stripZeros_ne_nil (t : List Char) : stripZeros t ≠ [] := by
  rw [stripZeros]
  split
  · exact List.cons_ne_nil _ _
  · exact List.cons_ne_nil _ _

/-- What is left without spare zeros are digits of the numeral, or a single zero. -/
theorem mem_of_mem_stripZeros {c : Char} {t : List Char} (h : c ∈ stripZeros t) :
    c = '0' ∨ c ∈ t := by
  rw [stripZeros] at h
  split at h
  · exact Or.inl (List.mem_singleton.mp h)
  · next d r hs => exact Or.inr (List.dropWhile_subset _ (hs ▸ h))

/-- Without its spare zeros a numeral has none. -/
theorem hasSpareZero_stripZeros (t : List Char) : hasSpareZero (stripZeros t) = false := by
  rw [stripZeros]
  cases hs : t.dropWhile (· == '0') with
  | nil => rfl
  | cons d r =>
    have hd : (d == '0') = false := by
      have hhead := List.head?_dropWhile_not (· == '0') t
      simpa [hs] using hhead
    have hne : d ≠ '0' := by simpa using hd
    simp [hasSpareZero, hne]

/-- Spare zeros do not change the value of a numeral. -/
theorem numeralValue_stripZeros (t : List Char) : numeralValue (stripZeros t) = numeralValue t := by
  induction t with
  | nil => rfl
  | cons c t ih =>
    by_cases hc : c = '0'
    · subst hc
      exact ih
    · rw [stripZeros_of_ne hc]

end DependencyClause.Text
