import DependencyClause.Proofs.Acceptance.Ranges

/-!
# Agreement of the comparisons

Every comparison admits the version that it names, so the exact one is the narrowest. Lower bounds
tell versions apart up to their builds: two versions that meet each other's bound have the same
numbers and the same prerelease. Only the exact comparison looks at builds.
-/

namespace DependencyClause

section

variable [VersionLibrary] {v w v' w' : Version}

/-- The two versions differ in their builds at most. -/
def Version.SameUpToBuild (v w : Version) : Prop :=
  v.SameRelease w ∧ v.prerelease = w.prerelease

namespace Version.SameUpToBuild

theorem isPrerelease_iff (h : v.SameUpToBuild w) : v.IsPrerelease ↔ w.IsPrerelease := by
  rw [IsPrerelease, IsPrerelease, h.2]

theorem sameRelease_iff (hv : v'.SameUpToBuild v) (hw : w'.SameUpToBuild w) :
    w'.SameRelease v' ↔ w.SameRelease v := by
  obtain ⟨⟨hmajor, hminor, hpatch⟩, -⟩ := hv
  obtain ⟨⟨hmajor', hminor', hpatch'⟩, -⟩ := hw
  simp only [SameRelease, hmajor, hminor, hpatch, hmajor', hminor', hpatch']

/-- Neither version comes before the other. -/
theorem precedence_eq (h : v.SameUpToBuild w) :
    SemanticVersion.precedence v.parts w.parts = .eq :=
  SemanticVersion.precedence_eq_iff.mpr h

end Version.SameUpToBuild

namespace Comparison

/-- Every range is open to the version that it starts at. -/
theorem open_self (v : Version) : Open v v := fun h => ⟨h, rfl, rfl, rfl⟩

/-- Whether a range is open to a version does not depend on builds. -/
theorem open_congr (hv : v'.SameUpToBuild v) (hw : w'.SameUpToBuild w) :
    Open v' w' ↔ Open v w := by
  rw [Open, Open, hw.isPrerelease_iff, hv.isPrerelease_iff, hv.sameRelease_iff hw]

/-- Whether two versions are in one series does not depend on builds. -/
theorem sameSeries_congr (hv : v'.SameUpToBuild v) (hw : w'.SameUpToBuild w) :
    SameSeries v' w' ↔ SameSeries v w := by
  obtain ⟨⟨hmajor, hminor, -⟩, -⟩ := hv
  obtain ⟨⟨hmajor', hminor', -⟩, -⟩ := hw
  simp only [SameSeries, hmajor, hminor, hmajor', hminor']

end Comparison

/-- Where any version will do, a pin that names one is accepted exactly if it names a release. -/
theorem VersionConstraint.accepts_any_iff {p : Pin} (hw : p.version? = some w) :
    any.Accepts p ↔ ¬ w.IsPrerelease := by
  change (∀ u ∈ p.version?, ¬ u.IsPrerelease) ↔ ¬ w.IsPrerelease
  simp [hw]

variable [LawfulVersionLibrary]

namespace Version

/-- Which of two versions comes first does not depend on builds. -/
theorem atLeast_congr (hv : v'.SameUpToBuild v) (hw : w'.SameUpToBuild w) :
    w'.AtLeast v' ↔ w.AtLeast v := by
  rw [LawfulVersionLibrary.atLeast_iff, LawfulVersionLibrary.atLeast_iff, SemanticVersion.AtLeast,
    SemanticVersion.AtLeast, Std.TransCmp.congr_left hw.precedence_eq,
    Std.TransCmp.congr_right hv.precedence_eq]

end Version

namespace Comparison

/-- A comparison other than the exact one looks at no build. -/
theorem admits_congr {k : Comparison} (hk : k ≠ exactly) (hv : v'.SameUpToBuild v)
    (hw : w'.SameUpToBuild w) : k.Admits v' w' ↔ k.Admits v w := by
  cases k with
  | exactly => exact absurd rfl hk
  | atLeast => exact and_congr (open_congr hv hw) (Version.atLeast_congr hv hw)
  | compatibleWith =>
    exact and_congr (open_congr hv hw)
      (and_congr (sameSeries_congr hv hw) (Version.atLeast_congr hv hw))

/-- Every comparison admits the version that it names. -/
theorem admits_self (k : Comparison) (v : Version) : k.Admits v v := by
  have hle : v.AtLeast v := LawfulVersionLibrary.atLeast_iff.mpr (.refl v.parts)
  cases k with
  | exactly => exact LawfulVersionLibrary.equal_iff.mpr rfl
  | atLeast => exact ⟨open_self v, hle⟩
  | compatibleWith => exact ⟨open_self v, ⟨rfl, fun _ => rfl⟩, hle⟩

/-- What the exact comparison admits is admitted by every other one, either way round. -/
theorem admits_of_exactly (h : exactly.Admits v w) (k : Comparison) (hk : k ≠ exactly) :
    k.Admits v w ∧ k.Admits w v := by
  obtain ⟨hsame, hpre, -⟩ := Version.equal_iff.mp h
  have hself : v.SameUpToBuild v := ⟨⟨rfl, rfl, rfl⟩, rfl⟩
  have hw : w.SameUpToBuild v := ⟨hsame, hpre⟩
  exact ⟨(admits_congr hk hself hw).mpr (k.admits_self v),
    (admits_congr hk hw hself).mpr (k.admits_self v)⟩

/-- Versions that meet each other's lower bound differ in their builds at most, so the exact
comparison admits one for the other where their builds are equal. -/
theorem eq_up_to_build_of_admits (h : atLeast.Admits v w) (h' : atLeast.Admits w v) :
    w.SameRelease v ∧ w.prerelease = v.prerelease ∧
      (exactly.Admits v w ↔ w.build = v.build) := by
  have hle := LawfulVersionLibrary.atLeast_iff.mp h.2
  obtain ⟨hsame, hpre⟩ := hle.antisymm (LawfulVersionLibrary.atLeast_iff.mp h'.2)
  refine ⟨hsame, hpre, ?_⟩
  rw [Admits, Version.equal_iff]
  exact ⟨fun he => he.2.2, fun hbuild => ⟨hsame, hpre, hbuild⟩⟩

end Comparison

namespace VersionConstraint

variable {p q : Pin}

/-- Let two pins name the versions `w` and `v`. If exactly `v` accepts the first pin, then so do the
ranges from `v` on, and at least `w` accepts the second one. If each lower bound accepts the pin of
the other version, then the versions have the same numbers and the same prerelease, and exactly `v`
accepts the first pin where the builds are equal as well. Whatever builds the versions have instead,
no other constraint accepts more or less. -/
theorem comparisons_agree (hw : p.version? = some w) (hv : q.version? = some v) :
    ((comparison .exactly v).Accepts p →
      (comparison .compatibleWith v).Accepts p ∧ (comparison .atLeast v).Accepts p ∧
        (comparison .atLeast w).Accepts q) ∧
    ((comparison .atLeast v).Accepts p → (comparison .atLeast w).Accepts q →
      w.SameRelease v ∧ w.prerelease = v.prerelease ∧
        ((comparison .exactly v).Accepts p ↔ w.build = v.build)) ∧
    ∀ p' w' v', Pin.version? p' = some w' → w'.SameUpToBuild w → v'.SameUpToBuild v →
      (any.Accepts p' ↔ any.Accepts p) ∧
        ∀ k, k ≠ .exactly →
          ((comparison k v').Accepts p' ↔ (comparison k v).Accepts p) := by
  simp only [accepts_comparison_iff hw, accepts_comparison_iff hv]
  refine ⟨fun h => ?_, Comparison.eq_up_to_build_of_admits, fun p' w' v' hw' hbuild hbuild' => ?_⟩
  · obtain ⟨hlower, hlower'⟩ := Comparison.admits_of_exactly h .atLeast nofun
    exact ⟨(Comparison.admits_of_exactly h .compatibleWith nofun).1, hlower, hlower'⟩
  · refine ⟨?_, fun k hk => ?_⟩
    · rw [accepts_any_iff hw', accepts_any_iff hw, hbuild.isPrerelease_iff]
    · rw [accepts_comparison_iff hw']
      exact Comparison.admits_congr hk hbuild' hbuild

end VersionConstraint

end

namespace VersionConstraint

/-- Two builds of one prerelease meet each other's lower bound, and neither is exactly the other. -/
theorem comparisons_agree_two_builds :
    (comparison .atLeast
        (SemanticVersion.mk 1 2 0 [.alphanumeric "rc".toList, .numeric 1] ["b".toList])).Accepts
        ⟨"v1.2-rc.1+a".toList⟩ ∧
      ¬ (comparison .exactly
          (SemanticVersion.mk 1 2 0 [.alphanumeric "rc".toList, .numeric 1] ["b".toList])).Accepts
        ⟨"v1.2-rc.1+a".toList⟩ ∧
      (comparison .compatibleWith
          (SemanticVersion.mk 1 2 0 [.alphanumeric "rc".toList, .numeric 1] [])).Accepts
        ⟨"1.2.0-rc.1+b".toList⟩ := by
  let rc (build : List (List Char)) : SemanticVersion :=
    { major := 1, minor := 2, patch := 0, build := build
      prerelease := [.alphanumeric "rc".toList, .numeric 1] }
  have hw : Pin.version? ⟨"v1.2-rc.1+a".toList⟩ = some (rc ["a".toList]) := by decide +kernel
  have hv : Pin.version? ⟨"1.2.0-rc.1+b".toList⟩ = some (rc ["b".toList]) := by decide +kernel
  obtain ⟨hself, -, hbuild⟩ := comparisons_agree hw hw
  obtain ⟨-, hsame, -⟩ := comparisons_agree hw hv
  obtain ⟨hcompatible, hatLeast, -⟩ := hself ((accepts_comparison_iff hw).mpr (by decide))
  have hlower : (comparison .atLeast (rc ["b".toList])).Accepts ⟨"v1.2-rc.1+a".toList⟩ :=
    (accepts_comparison_iff hw).mpr (by decide)
  refine ⟨hlower, fun hexactly => ?_, ?_⟩
  · have hb := (hsame hlower ((accepts_comparison_iff hv).mpr (by decide))).2.2.mp hexactly
    exact absurd hb (by decide)
  · refine ((hbuild _ (rc ["b".toList]) (rc []) hv ?_ ?_).2 .compatibleWith nofun).mpr hcompatible
    · exact ⟨⟨rfl, rfl, rfl⟩, rfl⟩
    · exact ⟨⟨rfl, rfl, rfl⟩, rfl⟩

end VersionConstraint

end DependencyClause
