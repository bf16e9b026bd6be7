import DependencyClause.Clause
import DependencyClause.Proofs.Version.Library

/-!
# What is accepted in place of a resolved pin

The clause that is made from a resolved pin accepts the pin's version, however it is spelled, and no
other version, on the platforms of the pin. A pin that names no version is accepted there as well.
-/

namespace DependencyClause

open Text

namespace Pin

/-- The commits of both pins spell tags that differ at most in how they spell a version. -/
def Respells (p q : Pin) : Prop :=
  ∃ s t : Tag, s.Respelled t ∧ (s.WellFormed ∧ s.SpelledBy p.commitish) ∧
    t.WellFormed ∧ t.SpelledBy q.commitish

end Pin

section

variable [VersionLibrary]

/-- What the clause for one version accepts. -/
theorem Clause.accepts_exactly_iff {v : Version} {s : PlatformRestriction} {q : Pin}
    {f : Platform} :
    Accepts { constraint := .comparison .exactly v, platforms := s } q f ↔
      s.Accepts f ∧ (q.version? = none ∨ ∃ w, q.version? = some w ∧ w.Equal v) := by
  have hconstraint : (VersionConstraint.comparison .exactly v).Accepts q ↔
      q.version? = none ∨ ∃ w, q.version? = some w ∧ w.Equal v := by
    change (∀ w ∈ q.version?, w.Equal v) ↔ _
    cases q.version? <;> simp
  rw [Accepts, hconstraint, and_comm]

variable [LawfulVersionLibrary]

/-- However a version is spelled, the pin names a version with its parts. -/
theorem Pin.Respells.map_parts_version?_eq {p q : Pin} (h : p.Respells q) :
    p.version?.map Version.parts = q.version?.map Version.parts := by
  obtain ⟨s, t, hst, ⟨hs, hp⟩, ht, hq⟩ := h
  rw [version?, version?, Version.map_parts_ofTag? hs hp, Version.map_parts_ofTag? ht hq,
    hst.lenient?_eq]

/-- No clause is made from a resolved pin that names no version. The clause that is made from any
other one accepts, on the platforms that the pin is restricted to, the pin itself, the pins that
name no version and those whose version is equal to the pin's in all its parts; and these are all
that it accepts. A pin that spells the same version in another way is one of them. -/
theorem Clause.ofResolved_accepts (r : ResolvedPin) :
    (ofResolved r = .error { cause := .versionUnavailable } ↔ r.pin.version? = none) ∧
    ((∃ e, ofResolved r = .error e) ↔ r.pin.version? = none) ∧
    ∀ v, r.pin.version? = some v → ∃ k, ofResolved r = .ok k ∧
      (∀ f, k.Accepts r.pin f ↔ r.platforms.Accepts f) ∧
      (∀ q f, k.Accepts q f ↔ r.platforms.Accepts f ∧ (q.version? = none ∨
        ∃ w, q.version? = some w ∧
          w.SameRelease v ∧ w.prerelease = v.prerelease ∧ w.build = v.build)) ∧
      ∀ q, r.pin.Respells q → ∀ f, k.Accepts q f ↔ r.platforms.Accepts f := by
  refine ⟨by simp [ofResolved_eq_error_iff], by simp [ofResolved_eq_error_iff], fun v hv => ?_⟩
  -- Whatever names a version with these parts is accepted wherever the restriction lets the
  -- platform pass.
  have hnames : ∀ q : Pin, q.version?.map Version.parts = some v.parts → ∀ f,
      Accepts { constraint := .comparison .exactly v, platforms := r.platforms } q f ↔
        r.platforms.Accepts f := by
    intro q hq f
    obtain ⟨w, hw, hparts⟩ := Option.map_eq_some_iff.mp hq
    rw [accepts_exactly_iff]
    exact and_iff_left (Or.inr ⟨w, hw, LawfulVersionLibrary.equal_iff.mpr hparts⟩)
  refine ⟨_, ofResolved_eq_ok_iff.mpr ⟨v, hv, rfl⟩, hnames r.pin (by rw [hv]; rfl),
    fun q f => ?_, fun q hq => ?_⟩
  · simp only [accepts_exactly_iff, Version.equal_iff]
  · refine hnames q ?_
    rw [← hq.map_parts_version?_eq, hv]
    rfl

end

/-- A pin with blanks around, a letter in front, a spare zero and a number left out is replaced by
the version that it spells, but not by a build of that version. -/
theorem Clause.ofResolved_accepts_padded : ∃ k,
    ofResolved { pin := ⟨" v01.2 ".toList⟩, platforms := .among (.ofList [.ios]) } = .ok k ∧
    k.Accepts ⟨"1.2.0".toList⟩ .ios ∧ ¬ k.Accepts ⟨"1.2.0".toList⟩ .linux ∧
    k.Accepts ⟨"main".toList⟩ .ios ∧ ¬ k.Accepts ⟨"1.2.0.4".toList⟩ .ios := by
  obtain ⟨-, -, h⟩ :=
    ofResolved_accepts { pin := ⟨" v01.2 ".toList⟩, platforms := .among (.ofList [.ios]) }
  obtain ⟨k, hk, -, hiff, hrespelled⟩ :=
    h (SemanticVersion.mk 1 2 0 [] []) (by decide +kernel)
  have hzero : Tag.Respelled ⟨["01".toList, "2".toList], []⟩ ⟨["1".toList, "2".toList], []⟩ :=
    .zero [] _ _ _ (by decide)
  have hmissing : Tag.Respelled ⟨["1".toList, "2".toList, "0".toList], []⟩
      ⟨["1".toList, "2".toList], []⟩ :=
    .missing ["1".toList, "2".toList] _ (by decide)
  have hpin : Pin.Respells ⟨" v01.2 ".toList⟩ ⟨"1.2.0".toList⟩ := by
    refine ⟨_, _, hzero.trans hmissing.symm, ?_, ?_⟩
    · exact Tag.ofText?_dropMark_trim_eq_some_iff.mp (by decide +kernel)
    · exact Tag.ofText?_dropMark_trim_eq_some_iff.mp (by decide +kernel)
  have hbuild : Pin.version? ⟨"1.2.0.4".toList⟩ =
      some (SemanticVersion.mk 1 2 0 [] ["4".toList]) := by decide +kernel
  refine ⟨k, hk, ?_, ?_, ?_, ?_⟩
  · exact (hrespelled _ hpin .ios).mpr (by decide)
  · exact fun hacc => absurd ((hrespelled _ hpin .linux).mp hacc) (by decide)
  · exact (hiff _ .ios).mpr ⟨by decide, Or.inl (by decide +kernel)⟩
  · intro hacc
    rcases ((hiff _ .ios).mp hacc).2 with hnone | ⟨w, hw, -, -, hw'⟩
    · exact absurd (hbuild.symm.trans hnone) nofun
    · obtain rfl := Option.some.inj (hbuild.symm.trans hw)
      exact absurd hw' nofun

end DependencyClause
