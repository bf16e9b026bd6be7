import DependencyClause.Proofs.Acceptance.Ranges

/-!
# Ranges among releases

Among releases a range is an interval of the order of versions: a lower bound alone accepts what is
at least the bound, and the compatible range accepts of this what comes before the next breaking
release. So a greater lower bound accepts no more releases, and where candidates are listed in
ascending order the accepted ones stand together, at the end of the list for a lower bound. All that
is used of the order is that it is the precedence of versions, as it is in any lawful library.
-/

namespace DependencyClause

open SemanticVersion (precedence)

section

variable [VersionLibrary] {v w : Version}

namespace Comparison

/-- Every range is open to releases. -/
theorem open_of_release (hw : ¬ w.IsPrerelease) : Open v w := fun h => absurd h hw

theorem admits_atLeast_iff_of_release (hw : ¬ w.IsPrerelease) :
    atLeast.Admits v w ↔ w.AtLeast v := by
  rw [Admits]
  exact and_iff_right (open_of_release hw)

theorem admits_compatibleWith_iff_of_release [LawfulVersionLibrary] (hw : ¬ w.IsPrerelease) :
    compatibleWith.Admits v w ↔
      w.AtLeast v ∧ precedence w.parts v.parts.nextBreaking = .lt := by
  rw [admits_compatibleWith_iff, admits_atLeast_iff_of_release hw]

end Comparison

namespace Pin

/-- The pin names the version, and the version is a release. -/
structure NamesRelease (p : Pin) (w : Version) : Prop where
  /-- The pin names the version. -/
  version?_eq : p.version? = some w
  /-- The version is a release. -/
  release : ¬ w.IsPrerelease

/-- The pins name releases, each at least what the pins before it name. -/
inductive Ascending : List Pin → Prop where
  /-- There are no pins. -/
  | nil : Ascending []
  /-- Behind a pin there are pins in ascending order that name no lesser release. -/
  | cons {p : Pin} {l : List Pin} {w : Version} (hp : p.NamesRelease w)
      (hl : ∀ q ∈ l, ∃ u, q.NamesRelease u ∧ u.AtLeast w) (h : Ascending l) : Ascending (p :: l)

theorem Ascending.exists_namesRelease {l : List Pin} (h : Ascending l) :
    ∀ p ∈ l, ∃ w, p.NamesRelease w := by
  cases h with
  | nil => exact nofun
  | cons hp hl =>
    refine List.forall_mem_cons.mpr ⟨⟨_, hp⟩, fun q hq => ?_⟩
    obtain ⟨u, hu, -⟩ := hl q hq
    exact ⟨u, hu⟩

theorem Ascending.of_append {l m : List Pin} (h : Ascending (l ++ m)) : Ascending m := by
  induction l with
  | nil => exact h
  | cons p l ih =>
    cases h with
    | cons hp hl h => exact ih h

end Pin

namespace VersionConstraint

variable {p q : Pin} {a b : Version}

theorem accepts_atLeast_iff_of_release (hp : p.NamesRelease a) :
    (comparison .atLeast v).Accepts p ↔ a.AtLeast v := by
  rw [accepts_comparison_iff hp.version?_eq, Comparison.admits_atLeast_iff_of_release hp.release]

variable [LawfulVersionLibrary]

theorem accepts_compatibleWith_iff_of_release (hp : p.NamesRelease a) :
    (comparison .compatibleWith v).Accepts p ↔
      a.AtLeast v ∧ precedence a.parts v.parts.nextBreaking = .lt := by
  rw [accepts_comparison_iff hp.version?_eq,
    Comparison.admits_compatibleWith_iff_of_release hp.release]

/-- A release that meets a lower bound meets every lesser one. -/
theorem accepts_atLeast_of_atLeast (hp : p.NamesRelease a) (hvw : w.AtLeast v)
    (h : (comparison .atLeast w).Accepts p) : (comparison .atLeast v).Accepts p := by
  rw [accepts_atLeast_iff_of_release hp, LawfulVersionLibrary.atLeast_iff] at h ⊢
  exact h.trans (LawfulVersionLibrary.atLeast_iff.mp hvw)

/-- With a release every later one meets a lower bound. -/
theorem accepts_atLeast_of_later (hp : p.NamesRelease a) (hq : q.NamesRelease b)
    (hab : b.AtLeast a) (h : (comparison .atLeast v).Accepts p) :
    (comparison .atLeast v).Accepts q := by
  rw [accepts_atLeast_iff_of_release hp, LawfulVersionLibrary.atLeast_iff] at h
  rw [accepts_atLeast_iff_of_release hq, LawfulVersionLibrary.atLeast_iff]
  exact (LawfulVersionLibrary.atLeast_iff.mp hab).trans h

/-- With a release every earlier one that meets the lower bound is compatible. -/
theorem accepts_compatibleWith_of_earlier (hp : p.NamesRelease a) (hq : q.NamesRelease b)
    (hab : b.AtLeast a) (hlower : (comparison .atLeast v).Accepts p)
    (h : (comparison .compatibleWith v).Accepts q) :
    (comparison .compatibleWith v).Accepts p := by
  rw [accepts_atLeast_iff_of_release hp] at hlower
  rw [accepts_compatibleWith_iff_of_release hq] at h
  rw [accepts_compatibleWith_iff_of_release hp]
  exact ⟨hlower, (LawfulVersionLibrary.atLeast_iff.mp hab).precedence_eq_lt h.2⟩

/-- A compatible release meets the lower bound. -/
theorem accepts_atLeast_of_compatibleWith (hp : p.NamesRelease a)
    (h : (comparison .compatibleWith v).Accepts p) : (comparison .atLeast v).Accepts p := by
  rw [accepts_compatibleWith_iff_of_release hp] at h
  exact (accepts_atLeast_iff_of_release hp).mpr h.1

variable {l : List Pin}

/-- Of ascending candidates a lower bound accepts those from one place on. -/
theorem exists_atLeast_append (v : Version) (h : Pin.Ascending l) :
    ∃ below within, l = below ++ within ∧
      (∀ p ∈ below, ¬ (comparison .atLeast v).Accepts p) ∧
      ∀ p ∈ within, (comparison .atLeast v).Accepts p := by
  induction h with
  | nil => exact ⟨[], [], rfl, nofun, nofun⟩
  | @cons p l a hp hl h ih =>
    by_cases haccepts : (comparison .atLeast v).Accepts p
    · refine ⟨[], p :: l, rfl, nofun, List.forall_mem_cons.mpr ⟨haccepts, fun q hq => ?_⟩⟩
      obtain ⟨b, hb, hab⟩ := hl q hq
      exact accepts_atLeast_of_later hp hb hab haccepts
    · obtain ⟨below, within, rfl, hbelow, hwithin⟩ := ih
      exact ⟨p :: below, within, rfl, List.forall_mem_cons.mpr ⟨haccepts, hbelow⟩, hwithin⟩

/-- Of ascending candidates that all meet the lower bound those up to one place are compatible. -/
private theorem exists_compatibleWith_append_of_atLeast (h : Pin.Ascending l)
    (hlower : ∀ p ∈ l, (comparison .atLeast v).Accepts p) :
    ∃ within above, l = within ++ above ∧
      (∀ p ∈ within, (comparison .compatibleWith v).Accepts p) ∧
      ∀ p ∈ above, ¬ (comparison .compatibleWith v).Accepts p := by
  induction h with
  | nil => exact ⟨[], [], rfl, nofun, nofun⟩
  | @cons p l a hp hl h ih =>
    obtain ⟨hlowerp, hlowerl⟩ := List.forall_mem_cons.mp hlower
    by_cases haccepts : (comparison .compatibleWith v).Accepts p
    · obtain ⟨within, above, rfl, hwithin, habove⟩ := ih hlowerl
      exact ⟨p :: within, above, rfl, List.forall_mem_cons.mpr ⟨haccepts, hwithin⟩, habove⟩
    · refine ⟨[], p :: l, rfl, nofun, List.forall_mem_cons.mpr ⟨haccepts, fun q hq hacceptsq => ?_⟩⟩
      obtain ⟨b, hb, hab⟩ := hl q hq
      exact haccepts (accepts_compatibleWith_of_earlier hp hb hab hlowerp hacceptsq)

/-- Of ascending candidates the compatible ones stand together. -/
theorem exists_compatibleWith_append (v : Version) (h : Pin.Ascending l) :
    ∃ below within above, l = below ++ within ++ above ∧
      (∀ p ∈ below, ¬ (comparison .compatibleWith v).Accepts p) ∧
      (∀ p ∈ within, (comparison .compatibleWith v).Accepts p) ∧
      ∀ p ∈ above, ¬ (comparison .compatibleWith v).Accepts p := by
  obtain ⟨below, rest, rfl, hbelow, hrest⟩ := exists_atLeast_append v h
  obtain ⟨within, above, rfl, hwithin, habove⟩ :=
    exists_compatibleWith_append_of_atLeast h.of_append hrest
  refine ⟨below, within, above, (List.append_assoc _ _ _).symm, fun p hp haccepts => ?_, hwithin,
    habove⟩
  obtain ⟨a, ha⟩ := h.exists_namesRelease p (List.mem_append_left _ hp)
  exact hbelow p hp (accepts_atLeast_of_compatibleWith ha haccepts)

/-- Among pins that name releases a greater lower bound accepts no more, a later release meets every
lower bound that an earlier one meets, and between two compatible releases all are compatible. So
of ascending candidates a lower bound accepts a part at the end, and a compatible range a part
without gaps. -/
theorem releases_accepted_in_intervals (v : Version) :
    (∀ w p a, w.AtLeast v → Pin.NamesRelease p a →
      (comparison .atLeast w).Accepts p → (comparison .atLeast v).Accepts p) ∧
    (∀ p q a c, Pin.NamesRelease p a → Pin.NamesRelease q c → c.AtLeast a →
      (comparison .atLeast v).Accepts p → (comparison .atLeast v).Accepts q) ∧
    (∀ p q r a b c, Pin.NamesRelease p a → Pin.NamesRelease q b → Pin.NamesRelease r c →
      b.AtLeast a → c.AtLeast b →
      (comparison .compatibleWith v).Accepts p → (comparison .compatibleWith v).Accepts r →
      (comparison .compatibleWith v).Accepts q) ∧
    ∀ l, Pin.Ascending l →
      (∃ below within, l = below ++ within ∧
        (∀ p ∈ below, ¬ (comparison .atLeast v).Accepts p) ∧
        ∀ p ∈ within, (comparison .atLeast v).Accepts p) ∧
      ∃ below within above, l = below ++ within ++ above ∧
        (∀ p ∈ below, ¬ (comparison .compatibleWith v).Accepts p) ∧
        (∀ p ∈ within, (comparison .compatibleWith v).Accepts p) ∧
        ∀ p ∈ above, ¬ (comparison .compatibleWith v).Accepts p := by
  refine ⟨fun w p a hvw hp h => ?_, fun p q a c hp hq hac h => ?_,
    fun p q r a b c hp hq hr hab hbc h h' => ?_, fun l hl => ?_⟩
  · exact accepts_atLeast_of_atLeast hp hvw h
  · exact accepts_atLeast_of_later hp hq hac h
  · have hlower := accepts_atLeast_of_later hp hq hab (accepts_atLeast_of_compatibleWith hp h)
    exact accepts_compatibleWith_of_earlier hq hr hbc hlower h'
  · exact ⟨exists_atLeast_append v hl, exists_compatibleWith_append v hl⟩

end VersionConstraint

end

namespace VersionConstraint

/-- A release between the first and a later one of a minor version, which are compatible with a
prerelease of it, is compatible with it as well and meets a lesser lower bound. -/
theorem releases_accepted_in_intervals_zero_major :
    (comparison .compatibleWith (SemanticVersion.mk 0 2 0 [.alphanumeric "rc".toList] [])).Accepts
        ⟨"0.2.5+b".toList⟩ ∧
      (comparison .atLeast (SemanticVersion.mk 0 1 9 [.numeric 1] [])).Accepts
        ⟨"0.2.5+b".toList⟩ ∧
      ∃ below within, [⟨"v0.2".toList⟩, ⟨"0.2.5+b".toList⟩, ⟨"0.2.17".toList⟩] = below ++ within ∧
        (∀ p ∈ below, ¬ (comparison .atLeast
          (SemanticVersion.mk 0 2 0 [.alphanumeric "rc".toList] [])).Accepts p) ∧
        ∀ p ∈ within, (comparison .atLeast
          (SemanticVersion.mk 0 2 0 [.alphanumeric "rc".toList] [])).Accepts p := by
  have hfirst : Pin.NamesRelease ⟨"v0.2".toList⟩ (SemanticVersion.mk 0 2 0 [] []) :=
    ⟨by decide +kernel, by decide⟩
  have hbetween :
      Pin.NamesRelease ⟨"0.2.5+b".toList⟩ (SemanticVersion.mk 0 2 5 [] ["b".toList]) :=
    ⟨by decide +kernel, by decide⟩
  have hlast : Pin.NamesRelease ⟨"0.2.17".toList⟩ (SemanticVersion.mk 0 2 17 [] []) :=
    ⟨by decide +kernel, by decide⟩
  have hascending :
      Pin.Ascending [⟨"v0.2".toList⟩, ⟨"0.2.5+b".toList⟩, ⟨"0.2.17".toList⟩] := by
    refine .cons hfirst ?_ (.cons hbetween ?_ (.cons hlast nofun .nil))
    · exact List.forall_mem_cons.mpr
        ⟨⟨_, hbetween, by decide⟩, List.forall_mem_singleton.mpr ⟨_, hlast, by decide⟩⟩
    · exact List.forall_mem_singleton.mpr ⟨_, hlast, by decide⟩
  obtain ⟨-, hlater, hcompatible, hcandidates⟩ :=
    releases_accepted_in_intervals (SemanticVersion.mk 0 2 0 [.alphanumeric "rc".toList] [])
  obtain ⟨hlesser, -⟩ := releases_accepted_in_intervals (SemanticVersion.mk 0 1 9 [.numeric 1] [])
  have hlower := hlater _ _ _ _ hfirst hbetween (by decide)
    ((accepts_atLeast_iff_of_release hfirst).mpr (by decide))
  refine ⟨?_, hlesser _ _ _ (by decide) hbetween hlower, (hcandidates _ hascending).1⟩
  exact hcompatible _ _ _ _ _ _ hfirst hbetween hlast (by decide) (by decide)
    ((accepts_compatibleWith_iff_of_release hfirst).mpr (by decide))
    ((accepts_compatibleWith_iff_of_release hlast).mpr (by decide))

end VersionConstraint

end DependencyClause
