/-!
# Blank characters

Properties of characters are listed as closed ranges of code points. `isBlank` holds of Unicode
white space and of the four information separators U+001C to U+001F. `trim` drops blanks at both
ends of a text.
-/

namespace DependencyClause.Text

/-- Whether `n` lies in one of the closed ranges. -/
def inRanges (ranges : List (Nat × Nat)) (n : Nat) : Bool :=
  ranges.any fun r => r.1 ≤ n && n ≤ r.2

theorem inRanges_iff {ranges : List (Nat × Nat)} {n : Nat} :
    inRanges ranges n = true ↔ ∃ r ∈ ranges, r.1 ≤ n ∧ n ≤ r.2 := by
  simp [inRanges]

/-- The code points of blank characters. -/
def blankRanges : List (Nat × Nat) :=
  [(0x09, 0x0D), (0x1C, 0x20), (0x85, 0x85), (0xA0, 0xA0), (0x1680, 0x1680), (0x2000, 0x200A),
   (0x2028, 0x2029), (0x202F, 0x202F), (0x205F, 0x205F), (0x3000, 0x3000)]

/-- Whether the character counts as blank when text is trimmed. -/
def isBlank (c : Char) : Bool := inRanges blankRanges c.toNat

/-- The text without the blanks at its start. -/
def trimStart (t : List Char) : List Char := t.dropWhile isBlank

/-- The text without the blanks at its two ends. -/
def trim (t : List Char) : List Char := (trimStart (trimStart t).reverse).reverse

/-- Trimming leaves only what lies between two runs of blanks. -/
theorem exists_eq_append_trim (t : List Char) :
    ∃ l r, t = l ++ trim t ++ r ∧ (∀ c ∈ l, isBlank c = true) ∧ ∀ c ∈ r, isBlank c = true := by
  have h₁ := List.takeWhile_append_dropWhile (p := isBlank) (l := t)
  have h₂ := List.takeWhile_append_dropWhile (p := isBlank) (l := (trimStart t).reverse)
  refine ⟨t.takeWhile isBlank, ((trimStart t).reverse.takeWhile isBlank).reverse, ?_, ?_, ?_⟩
  · have h₃ := congrArg List.reverse h₂
    rw [List.reverse_append, List.reverse_reverse] at h₃
    rw [List.append_assoc, trim, trimStart, h₃, trimStart, h₁]
  · exact fun c hc => List.all_eq_true.1 List.all_takeWhile c hc
  · intro c hc
    exact List.all_eq_true.1 List.all_takeWhile c (List.mem_reverse.1 hc)

/-- Blanks in front of something that does not start with one are dropped. -/
theorem trimStart_append {l t : List Char} (hl : ∀ c ∈ l, isBlank c = true)
    (ht : ∀ c ∈ t.head?, isBlank c = false) : trimStart (l ++ t) = t := by
  rw [trimStart, List.dropWhile_append_of_pos hl]
  cases t with
  | nil => rfl
  | cons c t => rw [List.dropWhile_cons_of_neg (by simp [ht c rfl])]

/-- Between two runs of blanks, a text without blanks is what trimming leaves. -/
theorem trim_append {l t r : List Char} (hl : ∀ c ∈ l, isBlank c = true)
    (hr : ∀ c ∈ r, isBlank c = true) (hne : t ≠ []) (ht : ∀ c ∈ t, isBlank c = false) :
    trim (l ++ t ++ r) = t := by
  obtain ⟨d, s, rfl⟩ := List.exists_cons_of_ne_nil hne
  have hstart : trimStart (l ++ (d :: s ++ r)) = d :: s ++ r :=
    trimStart_append hl fun c hc => ht c (Option.some.inj hc ▸ List.mem_cons_self)
  have hend : trimStart (r.reverse ++ (d :: s).reverse) = (d :: s).reverse :=
    trimStart_append (fun c hc => hr c (List.mem_reverse.1 hc)) fun c hc =>
      ht c (List.mem_reverse.1 (List.mem_of_mem_head? hc))
  rw [trim, List.append_assoc, hstart, List.reverse_append, hend, List.reverse_reverse]

end DependencyClause.Text
