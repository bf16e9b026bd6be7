import DependencyClause.Proofs.Text.Decimal
import DependencyClause.Proofs.Text.Folding
import DependencyClause.Text.Quoted

/-!
# Printable texts

A printable text holds nothing that breaks a line of output or hides in it. Decimal numbers, tags
and quoted texts are printable, whatever the text that is quoted holds.
-/

namespace DependencyClause.Text

/-- Every character of the text is printable. -/
def Printable (t : List Char) : Prop := ∀ x ∈ t, isPrintable x = true

variable {s t : List Char}

theorem Printable.append (hs : Printable s) (ht : Printable t) : Printable (s ++ t) :=
  List.forall_mem_append.mpr ⟨hs, ht⟩

theorem Printable.cons {x : Char} (hx : isPrintable x = true) (ht : Printable t) :
    Printable (x :: t) :=
  List.forall_mem_cons.mpr ⟨hx, ht⟩

/-- A printable text holds no unprintable character, line feeds among them. -/
theorem Printable.not_mem (h : Printable t) {x : Char} (hx : isPrintable x = false) : x ∉ t :=
  fun hm => Bool.noConfusion (hx.symm.trans (h x hm))

/-- ASCII texts without controls are printable. -/
theorem printable_of_ascii (h : t.all (fun x => 0x20 ≤ x.toNat && x.toNat < 0x7F) = true) :
    Printable t := by
  intro x hx
  have hrange := List.all_eq_true.mp h x hx
  simp only [Bool.and_eq_true, decide_eq_true_eq] at hrange
  exact isPrintable_of_ascii hrange.1 hrange.2

/-- Decimal numbers are printable. -/
theorem printable_decimal (n : Nat) : Printable (decimal n) := by
  intro x hx
  have hd := isDigit_of_mem_decimal hx
  simp only [Char.isDigit, Bool.and_eq_true, decide_eq_true_eq] at hd
  have h₁ : 48 ≤ x.toNat := hd.1
  have h₂ : x.toNat ≤ 57 := hd.2
  exact isPrintable_of_ascii (by omega) (by omega)

/-- Texts of version characters are printable. -/
theorem printable_of_versionCharacters (h : ∀ x ∈ t, x ∈ CharSet.versionCharacters) :
    Printable t := by
  have hall : Printable
      "0123456789abcdefghijklmnopqrstuvwxyzABCDEFGHIJKLMNOPQRSTUVWXYZ.-+".toList :=
    printable_of_ascii rfl
  exact fun x hx => hall x (CharSet.mem_ofList.mp (h x hx))

/-- Hexadecimal digits are printable. -/
theorem printable_hexadecimal (width n : Nat) : Printable (hexadecimal width n) := by
  have hall : ∀ d < 16, isPrintable (Nat.digitChar d) = true := by decide
  induction width generalizing n with
  | zero => exact List.forall_mem_nil _
  | succ width ih =>
    have hlast := hall (n % 16) (Nat.mod_lt n (by omega))
    exact (ih (n / 16)).append (List.forall_mem_singleton.mpr hlast)

theorem printable_codePointEscape (n : Nat) : Printable (codePointEscape n) := by
  rw [codePointEscape]
  split
  · exact .cons (by decide) (.cons (by decide) (printable_hexadecimal 2 n))
  · split
    · exact .cons (by decide) (.cons (by decide) (printable_hexadecimal 4 n))
    · exact .cons (by decide) (.cons (by decide) (printable_hexadecimal 8 n))

/-- How a character is written between two marks. -/
inductive Escaped (mark : Char) : Char → List Char → Prop where
  /-- A mark and a backslash stand behind a backslash. -/
  | marked {c : Char} (h : c = mark ∨ c = '\\') : Escaped mark c ['\\', c]
  /-- A line feed has a letter. -/
  | lineFeed : Escaped mark '\n' ['\\', 'n']
  /-- A carriage return has a letter. -/
  | carriageReturn : Escaped mark '\r' ['\\', 'r']
  /-- A tab has a letter. -/
  | tab : Escaped mark '\t' ['\\', 't']
  /-- Any other printable character stands for itself. -/
  | plain {c : Char} (hmark : c ≠ mark) (hslash : c ≠ '\\') (hc : isPrintable c = true) :
      Escaped mark c [c]
  /-- Any other character is written by its code point. -/
  | codePoint (c : Char) : Escaped mark c (codePointEscape c.toNat)

theorem escaped_escape (mark c : Char) : Escaped mark c (escape mark c) := by
  rw [escape]
  split
  · next h => exact .marked h
  · next h =>
    obtain ⟨hmark, hslash⟩ := not_or.mp h
    split
    · next hc => exact hc ▸ .lineFeed
    · split
      · next hc => exact hc ▸ .carriageReturn
      · split
        · next hc => exact hc ▸ .tab
        · split
          · next hc => exact .plain hmark hslash hc
          · exact .codePoint c

/-- The written form of a character between printable marks is printable. -/
theorem Escaped.printable {mark c : Char} (h : Escaped mark c t)
    (hm : isPrintable mark = true) : Printable t := by
  cases h with
  | marked h =>
    rcases h with rfl | rfl
    · exact .cons (by decide) (.cons hm (List.forall_mem_nil _))
    · exact printable_of_ascii rfl
  | lineFeed => exact printable_of_ascii rfl
  | carriageReturn => exact printable_of_ascii rfl
  | tab => exact printable_of_ascii rfl
  | plain _ _ hc => exact .cons hc (List.forall_mem_nil _)
  | codePoint => exact printable_codePointEscape c.toNat

theorem quotationMark_eq_or (t : List Char) : quotationMark t = '\'' ∨ quotationMark t = '"' := by
  rw [quotationMark]
  split
  · exact Or.inr rfl
  · exact Or.inl rfl

/-- A quoted text is printable, whatever it holds. -/
theorem printable_quote (t : List Char) : Printable (quote t) := by
  have hmark : isPrintable (quotationMark t) = true := by
    rcases quotationMark_eq_or t with h | h
    · rw [h]
      decide
    · rw [h]
      decide
  have hbody : Printable (t.flatMap (escape (quotationMark t))) := by
    intro x hx
    obtain ⟨c, -, hc⟩ := List.mem_flatMap.mp hx
    exact (escaped_escape _ c).printable hmark x hc
  exact .append (.cons hmark hbody) (.cons hmark (List.forall_mem_nil _))

end DependencyClause.Text
