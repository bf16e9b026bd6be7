import DependencyClause.Proofs.Grammar.Clauses
import DependencyClause.Proofs.Roundtrip.Platforms
import DependencyClause.Proofs.Version.Library

/-!
# Clauses and their written forms

From the written form of a clause an equal clause is read, if the clause is readable: its version is
canonical, its reference can stand between quotation marks, and its list of platforms is not empty.
Whatever is read from a text is readable, and so is every clause that is made from a pin or from a
tag.
-/

namespace DependencyClause

open Text

section Library

variable [VersionLibrary]

/-- The constraint can be read back from its written form. -/
def VersionConstraint.Readable : VersionConstraint → Prop
  | any => True
  | comparison _ v => v.parts.Canonical
  | reference r => Quotable r

namespace Clause

/-- The clause can be read back from its written form. -/
structure Readable (k : Clause) : Prop where
  /-- Its constraint can. -/
  constraint : k.constraint.Readable
  /-- Its list of platforms is not empty. -/
  platforms : k.platforms ≠ .among ∅

/-- How a clause comes about. -/
inductive Made : Clause → Prop where
  /-- It is read from a text. -/
  | read {t : List Char} {k : Clause} (h : (read t).outcome = .value k) : Made k
  /-- It is made to accept any version. -/
  | any {r : PlatformRestriction} (hr : r ≠ .among ∅) : Made { constraint := .any, platforms := r }
  /-- It is made to compare with the version that a tag names. -/
  | compareWith {c : Comparison} {t : List Char} {q : VersionConstraint} {r : PlatformRestriction}
      (h : VersionConstraint.compareWith c t = .ok q) (hr : r ≠ .among ∅) :
      Made { constraint := q, platforms := r }
  /-- It is made to accept a resolved pin. -/
  | ofResolved {p : ResolvedPin} {k : Clause} (h : ofResolved p = .ok k)
      (hr : p.platforms ≠ .among ∅) : Made k

/-- The written form of a clause is the two forms of its parts, parted by blanks. -/
private theorem exists_text_eq (k : Clause) :
    ∃ v, IsBlankRun v ∧ k.text = k.constraint.text ++ v ++ k.platforms.text := by
  rw [text]
  by_cases hc : k.constraint.text = []
  · refine ⟨[], nofun, ?_⟩
    by_cases hp : k.platforms.text = []
    · simp [hc, hp]
    · simp [hc, hp]
  · by_cases hp : k.platforms.text = []
    · refine ⟨[], nofun, ?_⟩
      simp [hc, hp]
    · refine ⟨[' '], isBlankRun_space, ?_⟩
      simp [hc, hp, List.intercalate_cons_cons]

end Clause

variable [LawfulVersionLibrary]

/-- What a canonical version is written as writes an equal version, as the grammar has it. -/
theorem Version.exists_written_text {v : Version} (h : v.parts.Canonical) :
    ∃ u : Version, u.Equal v ∧ u.Written v.text := by
  obtain ⟨u, hu, he⟩ := exists_ofTag?_text h
  have htext := LawfulVersionLibrary.text_eq v
  exact ⟨u, he,
    { ne_nil := htext ▸ h.text_ne_nil
      characters := htext ▸ h.mem_versionCharacters_of_mem_text
      names := hu }⟩

namespace VersionConstraint

/-- What a readable constraint is written as writes an equal constraint, as the grammar has it. -/
theorem Readable.exists_written {q : VersionConstraint} (h : q.Readable) :
    ∃ q' : VersionConstraint, q'.Equal q ∧ q'.Written Quotable q.text := by
  cases q with
  | any => exact ⟨any, trivial, .any⟩
  | comparison c v =>
    obtain ⟨u, he, hu⟩ := Version.exists_written_text h
    have hw : (comparison c u).Written Quotable (c.symbol.toList ++ [' '] ++ v.text) :=
      .comparison isBlankRun_space hu
    have hsplit : (comparison c v).text = c.symbol.toList ++ [' '] ++ v.text := by
      rw [text, List.append_assoc]
      rfl
    exact ⟨comparison c u, ⟨rfl, he⟩, hsplit ▸ hw⟩
  | reference r => exact ⟨reference r, rfl, .reference h⟩

/-- A constraint that the grammar derives from some text is readable. -/
theorem readable_of_written {q : VersionConstraint} {t : List Char} (h : q.Written Quotable t) :
    q.Readable := by
  cases h with
  | any => exact trivial
  | comparison hw ht => exact Version.canonical_of_ofTag? ht.names
  | bare ht => exact Version.canonical_of_ofTag? ht.names
  | reference hr => exact hr

/-- Equal constraints are written the same way. -/
theorem Equal.text_eq {q q' : VersionConstraint} (h : q.Equal q') : q.text = q'.text := by
  match q, q', h with
  | any, any, _ => rfl
  | comparison c v, comparison _ w, ⟨rfl, hv⟩ => rw [text, text, hv.text_eq]
  | reference r, reference _, rfl => rfl

end VersionConstraint

namespace Clause

variable {k : Clause}

/-- A clause that is read from some text is readable. -/
theorem readable_of_read {t : List Char} (h : (read t).outcome = .value k) : k.Readable := by
  obtain ⟨-, hs, -, ht, -⟩ := written_of_read h
  exact
    { constraint := VersionConstraint.readable_of_written hs
      platforms := PlatformRestriction.ne_among_empty_of_written ht }

/-- Equal clauses are written the same way. -/
theorem Equal.text_eq {k' : Clause} (h : k.Equal k') : k.text = k'.text := by
  rw [text, text, h.1.text_eq, h.2]

/-- From the written form of a readable clause an equal clause is read. -/
theorem Readable.read_text (h : k.Readable) :
    ∃ k', (read k.text).outcome = .value k' ∧ k'.Equal k := by
  obtain ⟨q, hq, hw⟩ := h.constraint.exists_written
  obtain ⟨v, hv, ht⟩ := exists_text_eq k
  have hread := read_of_written (k := ⟨q, k.platforms⟩) (u := []) (w := []) nofun hw hv
    (PlatformRestriction.written_text h.platforms) nofun
    (PlatformRestriction.foldsSingly_text h.platforms)
  rw [List.nil_append, List.append_nil, ← ht] at hread
  exact ⟨_, hread, hq, rfl⟩

/-- However a clause comes about, it is readable. -/
theorem Made.readable (h : Made k) : k.Readable := by
  cases h with
  | read h => exact readable_of_read h
  | any hr => exact ⟨trivial, hr⟩
  | compareWith h hr =>
    obtain ⟨v, hv, rfl⟩ := VersionConstraint.compareWith_eq_ok_iff.mp h
    exact ⟨Version.canonical_of_ofTag? hv, hr⟩
  | ofResolved h hr =>
    obtain ⟨v, hv, rfl⟩ := ofResolved_eq_ok_iff.mp h
    exact ⟨Version.canonical_of_ofTag? hv, hr⟩

/-- However a clause comes about, from its written form a clause is read that is equal to it and is
written the same way. -/
theorem read_text_of_made (h : Made k) :
    ∃ k', (read k.text).outcome = .value k' ∧ k'.Equal k ∧ k'.text = k.text := by
  obtain ⟨k', hread, he⟩ := h.readable.read_text
  exact ⟨k', hread, he, he.text_eq⟩

end Clause

end Library

namespace Clause

/-- A letter that folds to two lets a mark into a reference, and the reference is read back with the
mark. -/
theorem read_text_mark_in_reference :
    (read "\"ß\"\"@platforms[UIKitForMac,ios]".toList).outcome =
        .value { constraint := .reference "ß\"".toList
                 platforms := .among (.ofList [.ios, .maccatalyst]) } ∧
      ∃ k, (read "\"ß\"\" @platforms [ios, maccatalyst]".toList).outcome = .value k ∧
        k.Equal { constraint := .reference "ß\"".toList
                  platforms := .among (.ofList [.ios, .maccatalyst]) } := by
  have hread : (read "\"ß\"\"@platforms[UIKitForMac,ios]".toList).outcome =
      .value { constraint := .reference "ß\"".toList
               platforms := .among (.ofList [.ios, .maccatalyst]) } := by decide +kernel
  have htext : text { constraint := .reference "ß\"".toList
                      platforms := .among (.ofList [.ios, .maccatalyst]) } =
      "\"ß\"\" @platforms [ios, maccatalyst]".toList := by decide +kernel
  obtain ⟨k, hagain, he, -⟩ := read_text_of_made (.read hread)
  rw [htext] at hagain
  exact ⟨hread, k, hagain, he⟩

end Clause

end DependencyClause
