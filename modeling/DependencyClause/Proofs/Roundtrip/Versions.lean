import DependencyClause.Proofs.Roundtrip.Clauses

/-!
# Versions and the tags that they are written as

Whatever tag a version is read from, the text that the version is written as is a tag in normal
form: it names a version that is equal in all its parts and is written the same way. Behind the
symbol of a comparison the text is read as a whole, up to the first character that no version holds.
-/

namespace DependencyClause

open Text Cursor

/-- A version is written with a digit first. -/
theorem SemanticVersion.exists_digit_text (v : SemanticVersion) :
    ∃ c s, v.text = c :: s ∧ c.isDigit = true := by
  obtain ⟨c, n, hn⟩ := List.exists_cons_of_ne_nil (decimal_ne_nil v.major)
  have hc : c.isDigit = true := isDigit_of_mem_decimal (n := v.major) (hn ▸ List.mem_cons_self)
  obtain ⟨s, hs⟩ := exists_dotted_eq_append (decimal v.major) [decimal v.minor, decimal v.patch]
  rw [text, hs, hn]
  exact ⟨c, _, rfl, hc⟩

section Library

variable [VersionLibrary]

/-- A comparison is read from its symbol and a text that writes its version, if no version character
follows. -/
theorem VersionConstraint.parser_reads_written (p : Comparison) {v : Version} {c : Cursor}
    {t w z : List Char} (hv : v.Written t) (hc : c.Plain) (hw : IsBlankRun w)
    (hz : ∀ x ∈ z.head?, x ∉ CharSet.versionCharacters)
    (h : c.remaining = p.symbol.toList ++ w ++ t ++ z) :
    parser.Reads c (comparison p v)
      { c with location := c.location + (p.symbol.toList ++ w ++ t).length } := by
  obtain ⟨d, hd, hrem⟩ := exists_passes h
  have hread : parser.Reads c (comparison p v) d :=
    parser_reads_comparison (w := []) hc nofun hw hv hd (hrem ▸ hz)
  rwa [hd.moved] at hread

variable [LawfulVersionLibrary]

/-- A version that is read from some tag is written with a digit first and in version characters
only. What it is written as names a version that is equal to it in all its parts and is written the
same way. This version is read as a whole behind the symbol of a comparison, whatever follows it but
a version character. -/
theorem Version.text_normal {t : List Char} {v : Version} (h : ofTag? t = some v) :
    (∃ c s, v.text = c :: s ∧ c.isDigit = true) ∧
    (∀ x ∈ v.text, x ∈ CharSet.versionCharacters) ∧
    ∃ u, ofTag? v.text = some u ∧ u.Equal v ∧ u.prerelease = v.prerelease ∧ u.build = v.build ∧
      u.text = v.text ∧
      ∀ (p : Comparison) (w z : List Char) (c : Cursor), c.Plain → IsBlankRun w →
        (∀ x ∈ z.head?, x ∉ CharSet.versionCharacters) →
        c.remaining = p.symbol.toList ++ w ++ v.text ++ z →
        VersionConstraint.parser.Reads c (.comparison p u)
          { c with location := c.location + (p.symbol.toList ++ w ++ v.text).length } := by
  obtain ⟨u, he, hu⟩ := exists_written_text (canonical_of_ofTag? h)
  obtain ⟨-, hprerelease, hbuild⟩ := equal_iff.mp he
  refine ⟨?_, hu.characters, u, hu.names, he, hprerelease, hbuild, he.text_eq, ?_⟩
  · rw [LawfulVersionLibrary.text_eq]
    exact v.parts.exists_digit_text
  · intro p w z c hc hw hz hrem
    exact VersionConstraint.parser_reads_written p hu hc hw hz hrem

end Library

/-- A tag with spare zeros, a fourth numeral and two plus signs is written in normal form, and a
digit that no version holds ends the version. -/
theorem Version.text_normal_four_numerals :
    ∃ v, ofTag? " v01.2.03.04+a+b ".toList = some v ∧ v.text = "1.2.3+04.a.b".toList ∧
      ∃ u, ofTag? "1.2.3+04.a.b".toList = some u ∧ u.Equal v ∧
        VersionConstraint.parser.Reads { text := "~>\t1.2.3+04.a.b٣".toList }
          (.comparison .compatibleWith u)
          { text := "~>\t1.2.3+04.a.b٣".toList, location := 15 } := by
  have h : ofTag? " v01.2.03.04+a+b ".toList =
      some (SemanticVersion.mk 1 2 3 [] ["04".toList, "a".toList, "b".toList]) := by decide +kernel
  have hend : ∀ x ∈ "٣".toList.head?, x ∉ CharSet.versionCharacters := by
    intro x hx
    rw [← Option.some.inj hx]
    decide
  obtain ⟨-, -, u, hu, he, -, -, -, hread⟩ := text_normal h
  refine ⟨_, h, by decide +kernel, u, hu, he, ?_⟩
  exact hread .compatibleWith "\t".toList "٣".toList _ (plain_fresh _)
    (List.forall_mem_singleton.mpr (by decide)) hend rfl

end DependencyClause
