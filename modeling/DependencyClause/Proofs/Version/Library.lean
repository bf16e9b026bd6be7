import DependencyClause.Proofs.Version.Canonical
import DependencyClause.Proofs.Version.Spelling

/-!
# Lawful libraries of versions

Semantic versions are a lawful library: a tag is read strictly as the version that it writes out. A
lawful library reads every tag as semantic versions do, so a text that spells a tag names a version
with the parts that the lenient reading of the tag gives. Such a version is canonical, and what it
is written as names an equal one.
-/

namespace DependencyClause

open Text

namespace Tag

open SemanticVersion

variable {tag : Tag}

/-- A tag is read strictly as the version that it writes out. -/
theorem strict?_eq_some_iff {v : SemanticVersion} (h : tag.WellFormed) :
    tag.strict? = some v ↔ tag.Spells v := by
  constructor
  · intro hv
    obtain ⟨numerals, suffix⟩ := tag
    rw [strict?] at hv
    split at hv
    · next x y z heq =>
      change numerals = [x, y, z] at heq
      subst heq
      obtain ⟨⟨p, b⟩, hparts, hv⟩ := Option.bind_eq_some_iff.mp hv
      obtain ⟨hp, hb⟩ := isDottedText_of_strictParts? h.suffix hparts
      obtain ⟨hnumbers, hpre, hbuild, rfl⟩ := ofParts?_eq_some_iff.mp hv
      obtain rfl : suffix = _ := eq_behind_of_strictParts? h.suffix hparts
      rw [← marked_words, ← marked_words]
      refine .intro hnumbers (fun w hw => ?_) fun w hw => ?_
      · obtain ⟨hne, hnumber⟩ := not_faultyIdentifier_iff.mp (hpre w hw)
        exact ⟨isWord_of_mem_words hp hw hne, hnumber⟩
      · obtain ⟨hne, hlength⟩ := not_faultyBuild_iff.mp (hbuild w hw)
        exact ⟨isWord_of_mem_words hb hw hne, hlength⟩
    · cases hv
  · rintro ⟨hnumbers, hpre, hbuild⟩
    have hp := fun w hw => (hpre w hw).1
    have hb := fun w hw => (hbuild w hw).1
    rw [strict?, marked_eq_behind hp, marked_eq_behind hb,
      strictParts?_behind (isDottedText_dotted hp) (isDottedText_dotted hb)]
    refine ofParts?_eq_some_iff.mpr ⟨hnumbers, ?_⟩
    rw [words_dotted hp, words_dotted hb]
    refine ⟨fun w hw => ?_, fun w hw => ?_, rfl⟩
    · exact not_faultyIdentifier_iff.mpr ⟨(hp w hw).ne_nil, (hpre w hw).2⟩
    · exact not_faultyBuild_iff.mpr ⟨(hb w hw).ne_nil, (hbuild w hw).2⟩

end Tag

/-- Semantic versions are a lawful library. -/
instance SemanticVersion.lawfulLibrary : LawfulVersionLibrary where
  strict?_iff {tag s} h := by
    have hread : Version.strict? tag.text = tag.strict? :=
      congrArg (Option.bind · Tag.strict?) (Tag.ofText?_text h)
    rw [hread, ← Tag.strict?_eq_some_iff h]
    exact ⟨fun ⟨_, hv, he⟩ => he ▸ hv, fun hs => ⟨s, hs, rfl⟩⟩
  coerce?_eq {tag} h := by
    have hcoerce : Version.coerce? tag.text = tag.lenient? :=
      congrArg (Option.bind · Tag.lenient?) (Tag.ofText?_text h)
    have hread : Version.strict? tag.normalized.text = tag.normalized.strict? :=
      congrArg (Option.bind · Tag.strict?) (Tag.ofText?_text h.normalized)
    rw [hcoerce, hread]
    rfl
  text_eq _ := rfl
  equal_iff := decide_eq_true_iff
  atLeast_iff := decide_eq_true_iff

namespace Version

variable [VersionLibrary] {t : List Char} {tag : Tag}

/-- A text that spells a tag is given to the library without the blanks around and without the mark
in front. -/
theorem ofTag?_of_spelledBy (h : tag.WellFormed) (ht : tag.SpelledBy t) :
    ofTag? t = (strict? tag.text <|> coerce? tag.text) := by
  have hcut := Tag.ofText?_dropMark_trim_eq_some_iff.mpr ⟨h, ht⟩
  obtain ⟨-, hcandidate⟩ := Tag.ofText?_eq_some_iff.mp hcut
  rw [ofTag?, hcut, hcandidate]
  rfl

/-- A text that spells no tag names no version. -/
theorem ofTag?_eq_none_of_not_spelledBy (h : ∀ tag : Tag, tag.WellFormed → ¬ tag.SpelledBy t) :
    ofTag? t = none := by
  have hcut : Tag.ofText? (Tag.dropMark (trim t)) = none := by
    rw [Option.eq_none_iff_forall_ne_some]
    intro tag htag
    obtain ⟨hwf, ht⟩ := Tag.ofText?_dropMark_trim_eq_some_iff.mp htag
    exact h tag hwf ht
  rw [ofTag?, hcut]
  rfl

/-- A text that names a version spells a tag. -/
theorem exists_spelledBy_of_ofTag? {v : Version} (h : ofTag? t = some v) :
    ∃ tag : Tag, tag.WellFormed ∧ tag.SpelledBy t := by
  cases hcut : Tag.ofText? (Tag.dropMark (trim t)) with
  | none =>
    rw [ofTag?, hcut] at h
    exact absurd h nofun
  | some tag => exact ⟨tag, Tag.ofText?_dropMark_trim_eq_some_iff.mp hcut⟩

variable [LawfulVersionLibrary]

/-- Versions are equal exactly if their numbers, prereleases and builds are. -/
theorem equal_iff {v w : Version} :
    v.Equal w ↔ v.SameRelease w ∧ v.prerelease = w.prerelease ∧ v.build = w.build :=
  LawfulVersionLibrary.equal_iff.trans SemanticVersion.eq_iff

/-- Equal versions are written the same way. -/
theorem Equal.text_eq {v w : Version} (h : v.Equal w) : v.text = w.text := by
  rw [LawfulVersionLibrary.text_eq, LawfulVersionLibrary.equal_iff.mp h,
    ← LawfulVersionLibrary.text_eq]

/-- A lawful library reads strictly what semantic versions do. -/
theorem map_parts_strict? (h : tag.WellFormed) : (strict? tag.text).map parts = tag.strict? := by
  refine Option.ext fun s => ?_
  rw [Option.map_eq_some_iff, LawfulVersionLibrary.strict?_iff h, Tag.strict?_eq_some_iff h]

/-- A lawful library coerces tags as semantic versions do. -/
theorem map_parts_coerce? (h : tag.WellFormed) : (coerce? tag.text).map parts = tag.lenient? := by
  rw [LawfulVersionLibrary.coerce?_eq h, map_parts_strict? h.normalized]
  rfl

/-- A text that spells a tag names a version with the parts that the tag means, read leniently. -/
theorem map_parts_ofTag? (h : tag.WellFormed) (ht : tag.SpelledBy t) :
    (ofTag? t).map parts = tag.lenient? := by
  rw [ofTag?_of_spelledBy h ht]
  have hstrict := map_parts_strict? h
  cases hs : strict? tag.text with
  | none => exact map_parts_coerce? h
  | some v =>
    rw [hs] at hstrict
    exact (Tag.lenient?_of_strict? h.suffix hstrict.symm).symm

/-- Whatever tag a version is read from, it is canonical. -/
theorem canonical_of_ofTag? {v : Version} (h : ofTag? t = some v) : v.parts.Canonical := by
  have hstrict : ∀ {tag : Tag}, tag.WellFormed → strict? tag.text = some v → v.parts.Canonical :=
    fun hwf hv => SemanticVersion.canonical_of_spells hwf
      ((LawfulVersionLibrary.strict?_iff hwf).mp ⟨v, hv, rfl⟩)
  obtain ⟨tag, hwf, ht⟩ := exists_spelledBy_of_ofTag? h
  rw [ofTag?_of_spelledBy hwf ht, Option.orElse_eq_orElse, Option.orElse_eq_or,
    Option.or_eq_some_iff] at h
  rcases h with hv | ⟨-, hv⟩
  · exact hstrict hwf hv
  · rw [LawfulVersionLibrary.coerce?_eq hwf] at hv
    exact hstrict hwf.normalized hv

/-- What a canonical version is written as names an equal version. -/
theorem exists_ofTag?_text {v : Version} (hv : v.parts.Canonical) :
    ∃ u, ofTag? v.text = some u ∧ u.Equal v := by
  have hspelled : v.parts.tag.SpelledBy v.text := by
    rw [LawfulVersionLibrary.text_eq, ← SemanticVersion.text_tag]
    exact ⟨[], [], [], by simp, by decide, List.forall_mem_nil _, List.forall_mem_nil _⟩
  obtain ⟨u, hu, hparts⟩ := (LawfulVersionLibrary.strict?_iff hv.wellFormed).mpr hv.spells
  refine ⟨u, ?_, LawfulVersionLibrary.equal_iff.mpr hparts⟩
  rw [ofTag?_of_spelledBy hv.wellFormed hspelled, hu]
  rfl

end Version

end DependencyClause
