import DependencyClause.Version.Precedence

/-!
# The order of versions

A version comes before another one by its numbers, or within one release by its prerelease. The next
breaking release of a version is the first one that users of the version may not be ready for. It is
parted from what comes before it by its own prereleases only.
-/

namespace DependencyClause.SemanticVersion

open Std

variable {v w : SemanticVersion}

/-- The numbers decide which version comes first, and the prereleases where the numbers agree. -/
theorem precedence_eq_lt_iff : precedence v w = .lt ↔
    v.major < w.major ∨ v.major = w.major ∧ (v.minor < w.minor ∨ v.minor = w.minor ∧
      (v.patch < w.patch ∨ v.patch = w.patch ∧
        comparePrerelease v.prerelease w.prerelease = .lt)) := by
  simp only [precedence, compareLex, compareOn, Ordering.then_eq_lt, Nat.compare_eq_lt,
    Nat.compare_eq_eq]

/-- A version is at least another one exactly if it does not come before it. -/
theorem atLeast_iff : v.AtLeast w ↔ precedence v w ≠ .lt := Ordering.isGE_iff_ne_lt

theorem AtLeast.major_le (h : v.AtLeast w) : w.major ≤ v.major := by
  rw [atLeast_iff, Ne, precedence_eq_lt_iff] at h
  omega

theorem AtLeast.minor_le (h : v.AtLeast w) (hmajor : v.major = w.major) : w.minor ≤ v.minor := by
  rw [atLeast_iff, Ne, precedence_eq_lt_iff] at h
  omega

@[refl] theorem AtLeast.refl (v : SemanticVersion) : v.AtLeast v :=
  OrientedCmp.isGE_of_isLE ReflCmp.isLE_rfl

theorem AtLeast.trans {u : SemanticVersion} (h : u.AtLeast v) (h' : v.AtLeast w) : u.AtLeast w :=
  TransCmp.isGE_trans h h'

/-- Where a version comes before a bound, so does all that it is at least. -/
theorem AtLeast.precedence_eq_lt {u : SemanticVersion} (h : w.AtLeast v)
    (hlt : precedence w u = .lt) : precedence v u = .lt :=
  TransCmp.lt_of_isLE_of_lt (OrientedCmp.isGE_iff_isLE.mp h) hlt

/-- Two versions of which each is at least the other differ in their builds at most. -/
theorem AtLeast.antisymm (h : v.AtLeast w) (h' : w.AtLeast v) :
    v.SameRelease w ∧ v.prerelease = w.prerelease :=
  precedence_eq_iff.mp (OrientedCmp.isGE_antisymm h h')

/-- Every prerelease comes before its release. -/
theorem comparePrerelease_nil_eq_lt_iff {l : List Identifier} :
    comparePrerelease l [] = .lt ↔ l ≠ [] := by
  cases l <;> simp [comparePrerelease]

/-- The first release after a version that may break what relies on the version: that of the next
major version, and below major version one that of the next minor version. -/
def nextBreaking (v : SemanticVersion) : SemanticVersion :=
  if v.major = 0 then { major := 0, minor := v.minor + 1, patch := 0 }
  else { major := v.major + 1, minor := 0, patch := 0 }

theorem nextBreaking_of_major_eq_zero (h : v.major = 0) :
    v.nextBreaking = { major := 0, minor := v.minor + 1, patch := 0 } := if_pos h

theorem nextBreaking_of_major_pos (h : 0 < v.major) :
    v.nextBreaking = { major := v.major + 1, minor := 0, patch := 0 } :=
  if_neg (Nat.ne_of_gt h)

theorem prerelease_nextBreaking (v : SemanticVersion) : v.nextBreaking.prerelease = [] := by
  rw [nextBreaking]
  split <;> rfl

/-- A prerelease of the next breaking release comes before that release. -/
theorem precedence_nextBreaking_of_sameRelease (hw : w.IsPrerelease)
    (h : w.SameRelease v.nextBreaking) : precedence w v.nextBreaking = .lt := by
  obtain ⟨hmajor, hminor, hpatch⟩ := h
  have hpre := comparePrerelease_nil_eq_lt_iff.mpr hw
  rw [← prerelease_nextBreaking v] at hpre
  exact precedence_eq_lt_iff.mpr (Or.inr ⟨hmajor, Or.inr ⟨hminor, Or.inr ⟨hpatch, hpre⟩⟩⟩)

/-- No version has the numbers of its next breaking release. -/
theorem not_sameRelease_nextBreaking (h : w.SameRelease v) : ¬ w.SameRelease v.nextBreaking := by
  obtain ⟨hmajor, hminor, -⟩ := h
  rintro ⟨hmajor', hminor', -⟩
  rcases Nat.eq_zero_or_pos v.major with hzero | hpos
  · rw [nextBreaking_of_major_eq_zero hzero] at hminor'
    dsimp only at hminor'
    omega
  · rw [nextBreaking_of_major_pos hpos] at hmajor'
    dsimp only at hmajor'
    omega

end DependencyClause.SemanticVersion
