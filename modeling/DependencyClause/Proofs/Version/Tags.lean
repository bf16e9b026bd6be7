import DependencyClause.Proofs.Text.Folding
import DependencyClause.Proofs.Version.Parts

/-!
# Tags and the texts that spell them

A tag is cut from the text that it is written as, and from no other. A text that spells a tag may
hold blanks around it and a letter before it, which do not count.
-/

namespace DependencyClause

open Text

variable {t : List Char}

/-- A digit of whatever script is not trimmed. -/
theorem isBlank_of_isDigit {c : Char} (h : isDigit c = true) : isBlank c = false := by
  have hapart : ∀ z ∈ decimalZeros, ∀ r ∈ blankRanges, z + 9 < r.1 ∨ r.2 < z := by decide
  obtain ⟨d, hd⟩ := Option.isSome_iff_exists.mp h
  obtain ⟨z, hz, hc⟩ := digitValue?_eq_some_iff.mp hd
  have hlt := digitValue?_lt_ten hd
  refine Bool.eq_false_iff.mpr fun hb => ?_
  obtain ⟨r, hr, hr₁, hr₂⟩ := inRanges_iff.mp hb
  have hzr := hapart z (List.mem_of_find?_eq_some hz) r hr
  omega

/-- Version characters are not trimmed. -/
theorem isBlank_of_mem_versionCharacters {x : Char} (h : x ∈ CharSet.versionCharacters) :
    isBlank x = false := by
  have hall : ∀ x ∈ CharSet.versionCharacters, isBlank x = false :=
    forall_mem_ofList_of_all (by decide)
  exact hall x h

namespace Tag

variable {tag : Tag}

theorem eq_or_eq_of_isSuffix {y : Char} (h : isSuffix (y :: t) = true) :
    y = '-' ∨ y = '+' := by
  rw [isSuffix, Bool.and_eq_true] at h
  simpa using h.1

/-- A suffix holds version characters only, its mark included. -/
theorem mem_versionCharacters_of_isSuffix (h : isSuffix t = true) :
    ∀ x ∈ t, x ∈ CharSet.versionCharacters := by
  cases t with
  | nil => exact List.forall_mem_nil _
  | cons y t =>
    have hy : y ∈ CharSet.versionCharacters := by
      rcases eq_or_eq_of_isSuffix h with rfl | rfl
      · decide
      · decide
    rw [isSuffix, Bool.and_eq_true] at h
    exact List.forall_mem_cons.mpr ⟨hy, by simpa using h.2⟩

theorem strictParts?_hyphen (t : List Char) : strictParts? ('-' :: t) =
    if (cutAtPlus t).1 = [] ∨ '+' ∈ (cutAtPlus t).2 ∨ ((cutAtPlus t).2 = [] ∧ '+' ∈ t) then none
    else some (cutAtPlus t) := rfl

theorem strictParts?_plus (t : List Char) :
    strictParts? ('+' :: t) = if t = [] ∨ '+' ∈ t then none else some ([], t) := rfl

theorem lenientParts_hyphen (t : List Char) : lenientParts ('-' :: t) =
    ((cutAtPlus t).1, (cutAtPlus t).2.map stopForPlus) := rfl

theorem lenientParts_of_head?_ne (h : t.head? ≠ some '-') :
    lenientParts t = ([], t.tail.map stopForPlus) := by
  unfold lenientParts
  split
  next heq =>
    split at heq
    · exact absurd rfl h
    · obtain ⟨rfl, rfl⟩ := Prod.mk.inj heq
      rfl

theorem isNumeralPart_of_mem_dotted (h : tag.WellFormed) :
    ∀ x ∈ SemanticVersion.dotted tag.numerals, isNumeralPart x = true :=
  SemanticVersion.forall_mem_dotted (by decide) fun n hn x hx => by
    rw [isNumeralPart, (h.numeral n hn).2 x hx, Bool.true_or]

/-- Numerals go on until the suffix starts. -/
private theorem dropWhile_isNumeralPart (h : isSuffix t = true) :
    t.takeWhile isNumeralPart = [] ∧ t.dropWhile isNumeralPart = t := by
  cases t with
  | nil => exact ⟨rfl, rfl⟩
  | cons y t =>
    have hy : isNumeralPart y = false := by
      rcases eq_or_eq_of_isSuffix h with rfl | rfl
      · decide
      · decide
    simp [hy]

/-- A tag that a text can be cut into is cut from its written form. -/
theorem ofText?_text (h : tag.WellFormed) : ofText? tag.text = some tag := by
  obtain ⟨hsuffix, hsuffix'⟩ := dropWhile_isNumeralPart h.suffix
  have htake : tag.text.takeWhile isNumeralPart = SemanticVersion.dotted tag.numerals := by
    rw [text, List.takeWhile_append_of_pos (isNumeralPart_of_mem_dotted h), hsuffix,
      List.append_nil]
  have hdrop : tag.text.dropWhile isNumeralPart = tag.suffix := by
    rw [text, List.dropWhile_append_of_pos (isNumeralPart_of_mem_dotted h), hsuffix']
  have hsplit : (SemanticVersion.dotted tag.numerals).splitOn '.' = tag.numerals := by
    refine List.splitOn_intercalate '.' (fun n hn hdot => ?_) h.ne_nil
    exact absurd ((h.numeral n hn).2 '.' hdot) (by decide)
  have hne : tag.numerals.all (· != []) = true :=
    List.all_eq_true.mpr fun n hn => by simpa using (h.numeral n hn).1
  rw [ofText?, htake, hdrop, hsplit]
  simp only [hne, h.suffix, Bool.and_self, if_true]

/-- A text is cut into a tag exactly if it is what the tag is written as. -/
theorem ofText?_eq_some_iff : ofText? t = some tag ↔ tag.WellFormed ∧ t = tag.text := by
  constructor
  · intro h
    rw [ofText?] at h
    split at h
    · next hc =>
      obtain rfl := Option.some.inj h
      obtain ⟨hne, hsuffix⟩ := Bool.and_eq_true_iff.mp hc
      refine ⟨⟨List.splitOn_ne_nil _ _, fun n hn => ⟨?_, fun c hc => ?_⟩, hsuffix⟩, ?_⟩
      · simpa using List.all_eq_true.mp hne n hn
      · obtain ⟨hmem, hdot⟩ := SemanticVersion.mem_of_mem_splitOn hn hc
        have hpart := List.all_eq_true.mp List.all_takeWhile c hmem
        simpa [isNumeralPart, hdot] using hpart
      · rw [text, SemanticVersion.dotted, List.intercalate_splitOn, List.takeWhile_append_dropWhile]
    · cases h
  · rintro ⟨h, rfl⟩
    exact ofText?_text h

/-- A tag that a text can be cut into starts with a digit. -/
theorem WellFormed.exists_cons_text (h : tag.WellFormed) :
    ∃ c s, tag.text = c :: s ∧ isDigit c = true := by
  obtain ⟨n, ns, hns⟩ := List.exists_cons_of_ne_nil h.ne_nil
  obtain ⟨hne, hdigit⟩ := h.numeral n (hns ▸ List.mem_cons_self)
  obtain ⟨c, n, rfl⟩ := List.exists_cons_of_ne_nil hne
  obtain ⟨s, hs⟩ := SemanticVersion.exists_dotted_eq_append (c :: n) ns
  exact ⟨c, n ++ s ++ tag.suffix, by rw [text, hns, hs]; rfl, hdigit c List.mem_cons_self⟩

/-- No character of it is trimmed. -/
theorem WellFormed.isBlank_of_mem_text (h : tag.WellFormed) :
    ∀ c ∈ tag.text, isBlank c = false := by
  intro c hc
  rcases List.mem_append.mp hc with hc | hc
  · have hdigit : ∀ n ∈ tag.numerals, ∀ x ∈ n, isBlank x = false := fun n hn x hx =>
      isBlank_of_isDigit ((h.numeral n hn).2 x hx)
    exact SemanticVersion.forall_mem_dotted (by decide) hdigit c hc
  · exact isBlank_of_mem_versionCharacters (mem_versionCharacters_of_isSuffix h.suffix c hc)

/-- A mark is not trimmed. -/
private theorem isBlank_of_mem_mark {mark : List Char} (hmark : mark ∈ marks) :
    ∀ c ∈ mark, isBlank c = false := by
  simp only [marks, List.mem_cons, List.not_mem_nil, or_false] at hmark
  rcases hmark with rfl | rfl | rfl
  · exact List.forall_mem_nil _
  · exact List.forall_mem_singleton.mpr (by decide)
  · exact List.forall_mem_singleton.mpr (by decide)

/-- A mark is dropped, and nothing more. -/
private theorem exists_eq_append_dropMark (t : List Char) :
    ∃ mark ∈ marks, t = mark ++ dropMark t := by
  cases t with
  | nil => exact ⟨[], by decide, rfl⟩
  | cons c t =>
    by_cases hc : c = 'v' ∨ c = 'V'
    · rcases hc with rfl | rfl
      · exact ⟨['v'], by decide, rfl⟩
      · exact ⟨['V'], by decide, rfl⟩
    · exact ⟨[], by decide, by rw [dropMark, if_neg hc]; rfl⟩

/-- The mark in front of a tag is dropped. -/
private theorem dropMark_append {mark : List Char} (hmark : mark ∈ marks) (h : tag.WellFormed) :
    dropMark (mark ++ tag.text) = tag.text := by
  simp only [marks, List.mem_cons, List.not_mem_nil, or_false] at hmark
  rcases hmark with rfl | rfl | rfl
  · obtain ⟨c, s, hs, hc⟩ := h.exists_cons_text
    rw [List.nil_append, hs, dropMark, if_neg]
    rintro (rfl | rfl)
    · exact absurd hc (by decide)
    · exact absurd hc (by decide)
  · rfl
  · rfl

/-- A text without the blanks around it and without a mark is cut into a tag exactly if the text
spells the tag. -/
theorem ofText?_dropMark_trim_eq_some_iff :
    ofText? (dropMark (trim t)) = some tag ↔ tag.WellFormed ∧ tag.SpelledBy t := by
  rw [ofText?_eq_some_iff]
  refine and_congr_right fun h => ⟨fun ht => ?_, ?_⟩
  · obtain ⟨l, r, hlr, hl, hr⟩ := exists_eq_append_trim t
    obtain ⟨mark, hmark, hm⟩ := exists_eq_append_dropMark (trim t)
    exact ⟨l, mark, r, by rwa [← ht, ← hm], hmark, hl, hr⟩
  · rintro ⟨l, mark, r, rfl, hmark, hl, hr⟩
    have hne : mark ++ tag.text ≠ [] := by
      obtain ⟨c, s, hs, -⟩ := h.exists_cons_text
      simp [hs]
    have hblank : ∀ c ∈ mark ++ tag.text, isBlank c = false := by
      intro c hc
      rcases List.mem_append.mp hc with hc | hc
      · exact isBlank_of_mem_mark hmark c hc
      · exact h.isBlank_of_mem_text c hc
    rw [trim_append hl hr hne hblank, dropMark_append hmark h]

end Tag

end DependencyClause
