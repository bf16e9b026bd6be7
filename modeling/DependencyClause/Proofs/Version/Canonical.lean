import DependencyClause.Proofs.Version.Parts
import DependencyClause.Proofs.Version.Tags

/-!
# Versions and their written forms

A canonical version is written as a tag that writes the version out again. Whatever tag a version is
written out by, the version is canonical: its numbers have the same values in decimal, and every
word of its prerelease is the text of the identifier that it stands for.
-/

namespace DependencyClause

open Text

/-- A number is one in decimal as well. -/
theorem IsNumber.decimal_numeralValue {t : List Char} (h : IsNumber t) :
    IsNumber (decimal (numeralValue t)) where
  hasSpareZero_eq := hasSpareZero_decimal _
  length_le := length_decimal_numeralValue_le (by decide) h.length_le

/-- A word is the text of the identifier that it stands for, unless it has a spare zero. -/
theorem Identifier.text_ofWord {w : List Char} (hne : w ≠ [])
    (h : w.all Char.isDigit = true → hasSpareZero w = false) : (ofWord w).text = w := by
  by_cases hd : w.all Char.isDigit = true
  · rw [ofWord, if_pos hd]
    exact decimal_numeralValue hne (List.all_eq_true.mp hd) (h hd)
  · rw [ofWord, if_neg hd]
    rfl

theorem Identifier.map_text_ofWord {ws : List (List Char)}
    (h : ∀ w ∈ ws, w ≠ [] ∧ (w.all Char.isDigit = true → hasSpareZero w = false)) :
    (ws.map ofWord).map text = ws := by
  rw [List.map_map]
  exact (List.map_congr_left fun w hw => text_ofWord (h w hw).1 (h w hw).2).trans (List.map_id ws)

namespace SemanticVersion

variable {v : SemanticVersion}

/-- The tag that a version is written as. -/
def tag (v : SemanticVersion) : Tag where
  numerals := [decimal v.major, decimal v.minor, decimal v.patch]
  suffix := marked '-' (v.prerelease.map Identifier.text) ++ marked '+' v.build

theorem text_tag (v : SemanticVersion) : v.tag.text = v.text := (List.append_assoc _ _ _).symm

/-- What the version is written as is a tag, which writes the version out again. -/
structure Canonical (v : SemanticVersion) : Prop where
  /-- What the version is written as is a tag. -/
  wellFormed : v.tag.WellFormed
  /-- The tag writes the version out. -/
  spells : v.tag.Spells v

/-- The numerals of a written version are decimal. -/
private theorem exists_decimal_of_mem_numerals {n : List Char} (hn : n ∈ v.tag.numerals) :
    ∃ k, n = decimal k := by
  simp only [tag, List.mem_cons, List.not_mem_nil, or_false] at hn
  rcases hn with rfl | rfl | rfl
  · exact ⟨_, rfl⟩
  · exact ⟨_, rfl⟩
  · exact ⟨_, rfl⟩

/-- What a version is written as is a tag, if its prerelease and its build make a suffix. -/
private theorem wellFormed_tag (h : Tag.isSuffix v.tag.suffix = true) : v.tag.WellFormed where
  ne_nil := List.cons_ne_nil _ _
  numeral := fun n hn => by
    obtain ⟨k, rfl⟩ := exists_decimal_of_mem_numerals hn
    exact ⟨decimal_ne_nil k, fun c hc => isDigit_of_asciiDigit (isDigit_of_mem_decimal hc)⟩
  suffix := h

theorem Canonical.text_ne_nil (h : v.Canonical) : v.text ≠ [] := by
  obtain ⟨c, s, hs, -⟩ := h.wellFormed.exists_cons_text
  rw [← text_tag, hs]
  exact List.cons_ne_nil c s

/-- A version is written in version characters. -/
theorem Canonical.mem_versionCharacters_of_mem_text (h : v.Canonical) :
    ∀ x ∈ v.text, x ∈ CharSet.versionCharacters := by
  rw [← text_tag]
  intro x hx
  rcases List.mem_append.mp hx with hx | hx
  · refine (isDottedText_dotted (fun n hn => ?_) x hx).1
    obtain ⟨k, rfl⟩ := exists_decimal_of_mem_numerals hn
    exact isWord_decimal k
  · exact Tag.mem_versionCharacters_of_isSuffix h.wellFormed.suffix x hx

/-- Whatever tag a version is written out by, the version is canonical. -/
theorem canonical_of_spells {t : Tag} (ht : t.WellFormed) (h : t.Spells v) : v.Canonical := by
  cases h with
  | @intro major minor patch prerelease build hnumbers hprerelease hbuild =>
    have hwords : (prerelease.map Identifier.ofWord).map Identifier.text = prerelease := by
      refine Identifier.map_text_ofWord fun w hw => ?_
      obtain ⟨hword, hnumber⟩ := hprerelease w hw
      exact ⟨hword.ne_nil, fun hd => (hnumber hd).hasSpareZero_eq⟩
    have htag : tag
        { major := numeralValue major
          minor := numeralValue minor
          patch := numeralValue patch
          prerelease := prerelease.map Identifier.ofWord
          build := build } =
        { numerals := [major, minor, patch].map fun n => decimal (numeralValue n)
          suffix := marked '-' prerelease ++ marked '+' build } := by
      simp only [tag, hwords, List.map_cons, List.map_nil]
    have hdecimal : ∀ n ∈ [major, minor, patch].map fun n => decimal (numeralValue n), IsNumber n :=
      List.forall_mem_map.mpr fun n hn => (hnumbers n hn).decimal_numeralValue
    have hspells := Tag.Spells.intro hdecimal hprerelease hbuild
    simp only [numeralValue_decimal] at hspells
    exact ⟨wellFormed_tag (htag ▸ ht.suffix), htag ▸ hspells⟩

end SemanticVersion

end DependencyClause
