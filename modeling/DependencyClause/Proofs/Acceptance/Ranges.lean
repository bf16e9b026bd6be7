import DependencyClause.Constraint
import DependencyClause.Proofs.Version.Library
import DependencyClause.Proofs.Version.Order

/-!
# Ranges of versions

A range starts at the version that it names. The compatible range is the whole range cut off at the
next breaking release, and the prereleases of that release are cut off with it. The order is that of
any lawful library of versions.
-/

namespace DependencyClause

open SemanticVersion (precedence)

section

variable [VersionLibrary] {v w : Version} {p : Pin}

/-- A pin that names a version meets a comparison exactly if the version does. -/
theorem VersionConstraint.accepts_comparison_iff {c : Comparison} (hw : p.version? = some w) :
    (comparison c v).Accepts p ↔ c.Admits v w := by
  change (∀ u ∈ p.version?, c.Admits v u) ↔ c.Admits v w
  simp [hw]

/-- A range that is open to a prerelease starts within the release of that prerelease, so no
prerelease of the next breaking release is in it. -/
theorem Comparison.Open.not_sameRelease_nextBreaking (h : Open v w) (hw : w.IsPrerelease) :
    ¬ w.parts.SameRelease v.parts.nextBreaking :=
  SemanticVersion.not_sameRelease_nextBreaking (h hw).2

variable [LawfulVersionLibrary]

/-- From a version on, what comes before its next breaking release is its own series and the
prereleases of that release. -/
theorem Version.precedence_nextBreaking_eq_lt_iff (h : w.AtLeast v) :
    precedence w.parts v.parts.nextBreaking = .lt ↔ Comparison.SameSeries v w ∨
      w.parts.SameRelease v.parts.nextBreaking ∧ w.IsPrerelease := by
  have hle := LawfulVersionLibrary.atLeast_iff.mp h
  have hmajor := hle.major_le
  have hminor := hle.minor_le
  have hprerelease : w.parts.prerelease ≠ [] ↔ w.IsPrerelease := Iff.rfl
  rw [SemanticVersion.precedence_eq_lt_iff, SemanticVersion.prerelease_nextBreaking,
    SemanticVersion.comparePrerelease_nil_eq_lt_iff, hprerelease, Comparison.SameSeries,
    SemanticVersion.SameRelease, major, major, minor, minor]
  -- What is left is linear in the numbers once it is known whether `w` is a prerelease.
  rcases Nat.eq_zero_or_pos v.parts.major with hzero | hpos
  · rw [SemanticVersion.nextBreaking_of_major_eq_zero hzero]
    by_cases hw : w.IsPrerelease
    · simp only [hw, and_true]
      omega
    · simp only [hw, and_false, or_false]
      omega
  · rw [SemanticVersion.nextBreaking_of_major_pos hpos]
    by_cases hw : w.IsPrerelease
    · simp only [hw, and_true]
      omega
    · simp only [hw, and_false, or_false]
      omega

/-- A version comes before a release exactly if it is not at least that release. -/
theorem Version.precedence_eq_lt_iff_not_atLeast {s : SemanticVersion} (hs : v.parts = s) :
    precedence w.parts s = .lt ↔ ¬ w.AtLeast v := by
  rw [LawfulVersionLibrary.atLeast_iff, hs, SemanticVersion.atLeast_iff, Decidable.not_not]

/-- The compatible range is what of the whole range comes before the next breaking release. -/
theorem Comparison.admits_compatibleWith_iff : compatibleWith.Admits v w ↔
    atLeast.Admits v w ∧ precedence w.parts v.parts.nextBreaking = .lt := by
  simp only [Admits]
  constructor
  · rintro ⟨hopen, hseries, hle⟩
    exact ⟨⟨hopen, hle⟩, (Version.precedence_nextBreaking_eq_lt_iff hle).mpr (Or.inl hseries)⟩
  · rintro ⟨⟨hopen, hle⟩, hlt⟩
    rcases (Version.precedence_nextBreaking_eq_lt_iff hle).mp hlt with hseries | ⟨hsame, hpre⟩
    · exact ⟨hopen, hseries, hle⟩
    · exact absurd hsame (hopen.not_sameRelease_nextBreaking hpre)

namespace VersionConstraint

/-- A pin that names a version is compatible with a required one exactly if it meets the lower bound
and its version comes before the next breaking release; that is, if it is not at least a version
that is this release. No prerelease of that release is compatible, although it comes before it. -/
theorem accepts_compatibleWith_iff (v : Version) (hw : p.version? = some w) :
    ((comparison .compatibleWith v).Accepts p ↔
      (comparison .atLeast v).Accepts p ∧ precedence w.parts v.parts.nextBreaking = .lt) ∧
    (∀ b : Version, b.parts = v.parts.nextBreaking →
      (precedence w.parts v.parts.nextBreaking = .lt ↔ ¬ w.AtLeast b)) ∧
    (w.IsPrerelease → w.parts.SameRelease v.parts.nextBreaking →
      precedence w.parts v.parts.nextBreaking = .lt ∧
        ¬ (comparison .compatibleWith v).Accepts p) := by
  simp only [accepts_comparison_iff hw]
  refine ⟨Comparison.admits_compatibleWith_iff, fun b hb => ?_,
    fun hpre hsame => ⟨?_, fun hadmits => ?_⟩⟩
  · exact Version.precedence_eq_lt_iff_not_atLeast hb
  · exact SemanticVersion.precedence_nextBreaking_of_sameRelease hpre hsame
  · exact hadmits.1.not_sameRelease_nextBreaking hpre hsame

end VersionConstraint

end

namespace VersionConstraint

/-- Below major version one a later candidate of the same release is compatible with a candidate,
and a candidate of the next minor version is not. -/
theorem accepts_compatibleWith_zero_major :
    (comparison .compatibleWith
        (SemanticVersion.mk 0 2 3 [.alphanumeric "rc".toList, .numeric 9] [])).Accepts
        ⟨"v0.2.3-rc.10+b".toList⟩ ∧
      ¬ (comparison .compatibleWith
        (SemanticVersion.mk 0 2 3 [.alphanumeric "rc".toList, .numeric 9] [])).Accepts
        ⟨"0.3-rc.1".toList⟩ := by
  have hlater : Pin.version? ⟨"v0.2.3-rc.10+b".toList⟩ =
      some (SemanticVersion.mk 0 2 3 [.alphanumeric "rc".toList, .numeric 10] ["b".toList]) := by
    decide +kernel
  have hnext : Pin.version? ⟨"0.3-rc.1".toList⟩ =
      some (SemanticVersion.mk 0 3 0 [.alphanumeric "rc".toList, .numeric 1] []) := by
    decide +kernel
  refine ⟨(accepts_compatibleWith_iff _ hlater).1.mpr ⟨?_, rfl⟩, ?_⟩
  · exact (accepts_comparison_iff hlater).mpr (by decide)
  · exact ((accepts_compatibleWith_iff _ hnext).2.2 (by decide) (by decide)).2

end VersionConstraint

end DependencyClause
