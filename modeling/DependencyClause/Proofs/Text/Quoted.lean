import DependencyClause.Proofs.Text.Printable

/-!
# Quoted texts can be told apart

`unescape?` reads back one character that `escape` has written, whatever follows it. So a quoted
text ends where its mark stands unescaped, and determines the text it was made from even within a
longer line.
-/

namespace DependencyClause.Text

/-- The value of a hexadecimal digit. -/
def hexadecimalValue (c : Char) : Nat := if c.isDigit then c.toNat - 48 else c.toNat - 87

/-- The number that hexadecimal digits write. -/
def readHexadecimal (t : List Char) : Nat :=
  t.foldl (fun n c => 16 * n + hexadecimalValue c) 0

/-- Digits of a fixed width write a number up to multiples of the next power. -/
theorem readHexadecimal_hexadecimal (width n : Nat) :
    readHexadecimal (hexadecimal width n) = n % Nat.pow 16 width := by
  have hdigit : ∀ d < 16, hexadecimalValue (Nat.digitChar d) = d := by decide
  induction width generalizing n with
  | zero => simp [hexadecimal, readHexadecimal, Nat.mod_one]
  | succ width ih =>
    rw [hexadecimal, readHexadecimal, List.foldl_append, ← readHexadecimal, ih]
    simp only [List.foldl_cons, List.foldl_nil, hdigit (n % 16) (Nat.mod_lt n (by omega))]
    calc
      _ = n % 16 + 16 * (n / 16 % Nat.pow 16 width) := Nat.add_comm _ _
      _ = n % (16 * Nat.pow 16 width) := (Nat.mod_mul).symm
      _ = n % Nat.pow 16 (width + 1) := congrArg (n % ·) (Nat.mul_comm _ _)

/-- Reads the code point that a number of hexadecimal digits name, and what follows them. -/
def readCodePoint (width : Nat) (t : List Char) : Char × List Char :=
  (Char.ofNat (readHexadecimal (t.take width)), t.drop width)

/-- A code point is read back from enough digits. -/
theorem readCodePoint_hexadecimal (width : Nat) {c : Char} (h : c.toNat < Nat.pow 16 width)
    (t : List Char) : readCodePoint width (hexadecimal width c.toNat ++ t) = (c, t) := by
  have hlen := length_hexadecimal width c.toNat
  rw [readCodePoint, List.take_left' hlen, List.drop_left' hlen, readHexadecimal_hexadecimal,
    Nat.mod_eq_of_lt h, Char.ofNat_toNat]

/-- Reads the rest of an escape behind its backslash. -/
def unescapeTail? : List Char → Option (Char × List Char)
  | [] => none
  | c :: t =>
    if c = 'n' then some ('\n', t)
    else if c = 'r' then some ('\r', t)
    else if c = 't' then some ('\t', t)
    else if c = 'x' then some (readCodePoint 2 t)
    else if c = 'u' then some (readCodePoint 4 t)
    else if c = 'U' then some (readCodePoint 8 t)
    else some (c, t)

/-- Reads one character, escaped or not, and tells what follows it. -/
def unescape? : List Char → Option (Char × List Char)
  | [] => none
  | c :: t => if c = '\\' then unescapeTail? t else some (c, t)

variable {mark : Char} {s t u v : List Char}

/-- A code point is read back from its escape. -/
theorem unescape?_codePointEscape (c : Char) (t : List Char) :
    unescape? (codePointEscape c.toNat ++ t) = some (c, t) := by
  have hc : c.toNat < 0x110000 := by
    have hvalid := c.valid
    simp only [UInt32.isValidChar, Nat.isValidChar] at hvalid
    change c.val.toNat < 0x110000
    omega
  rw [codePointEscape]
  split
  · next h => exact congrArg some (readCodePoint_hexadecimal 2 h t)
  · split
    · next h => exact congrArg some (readCodePoint_hexadecimal 4 h t)
    · exact congrArg some (readCodePoint_hexadecimal 8 (Nat.lt_trans hc (by decide)) t)

/-- A character is read back from its written form between quotation marks. -/
theorem Escaped.unescape?_append {c : Char} (h : Escaped mark c s) (hm : mark = '\'' ∨ mark = '"')
    (t : List Char) : unescape? (s ++ t) = some (c, t) := by
  cases h with
  | marked h =>
    -- Neither a quotation mark nor a backslash is the letter of an escape.
    rcases h with rfl | rfl
    · rcases hm with rfl | rfl
      · rfl
      · rfl
    · rfl
  | lineFeed => rfl
  | carriageReturn => rfl
  | tab => rfl
  | plain _ hslash _ => exact if_neg hslash
  | codePoint => exact unescape?_codePointEscape c t

/-- The written form of a character is not empty and starts with no mark. -/
theorem Escaped.head?_append_ne {c : Char} (h : Escaped mark c s) (hm : mark ≠ '\\')
    (t : List Char) : (s ++ t).head? ≠ some mark := by
  have hslash : some '\\' ≠ some mark := fun he => hm (Option.some.inj he).symm
  cases h with
  | marked => exact hslash
  | lineFeed => exact hslash
  | carriageReturn => exact hslash
  | tab => exact hslash
  | plain hmark => exact fun he => hmark (Option.some.inj he)
  | codePoint =>
    rw [codePointEscape]
    split
    · exact hslash
    · split
      · exact hslash
      · exact hslash

/-- A quoted text ends at the first mark that is not escaped. -/
theorem flatMap_escape_append_inj (hm : mark = '\'' ∨ mark = '"')
    (h : s.flatMap (escape mark) ++ mark :: u = t.flatMap (escape mark) ++ mark :: v) :
    s = t ∧ u = v := by
  have hslash : mark ≠ '\\' := by
    rcases hm with rfl | rfl
    · decide
    · decide
  -- Of the two texts neither can end before the other one.
  have hends : ∀ (c : Char) (r w x : List Char),
      mark :: w ≠ (c :: r).flatMap (escape mark) ++ x := by
    intro c r w x he
    rw [List.flatMap_cons, List.append_assoc] at he
    exact (escaped_escape mark c).head?_append_ne hslash _ (congrArg List.head? he).symm
  induction s generalizing t with
  | nil =>
    cases t with
    | nil => exact ⟨rfl, (List.cons.inj h).2⟩
    | cons d t => exact absurd h (hends d t _ _)
  | cons c s ih =>
    cases t with
    | nil => exact absurd h.symm (hends c s _ _)
    | cons d t =>
      rw [List.flatMap_cons, List.flatMap_cons, List.append_assoc, List.append_assoc] at h
      have hread := congrArg unescape? h
      rw [(escaped_escape mark c).unescape?_append hm, (escaped_escape mark d).unescape?_append hm,
        Option.some.injEq, Prod.mk.injEq] at hread
      obtain ⟨rfl, hrest⟩ := hread
      obtain ⟨rfl, rfl⟩ := ih hrest
      exact ⟨rfl, rfl⟩

/-- A quoted text determines the text it was made from, and where it ends in a longer line. -/
theorem quote_append_inj (h : quote s ++ u = quote t ++ v) : s = t ∧ u = v := by
  simp only [quote, List.cons_append, List.append_assoc, List.nil_append] at h
  obtain ⟨hmark, hbody⟩ := List.cons.inj h
  rw [hmark] at hbody
  exact flatMap_escape_append_inj (quotationMark_eq_or t) hbody

/-- Two lines of one form are made from one text if they are equal, whatever stands behind. -/
theorem eq_of_append_quote_append {l r : List Char}
    (h : l ++ quote s ++ r ++ u = l ++ quote t ++ r ++ v) : s = t := by
  simp only [List.append_assoc] at h
  exact (quote_append_inj (List.append_cancel_left h)).1

end DependencyClause.Text
