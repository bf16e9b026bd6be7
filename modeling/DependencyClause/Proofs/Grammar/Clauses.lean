import DependencyClause.Clause
import DependencyClause.Proofs.Grammar.Constraints
import DependencyClause.Proofs.Grammar.Platforms
import DependencyClause.Version.Reading

/-!
# Reading clauses

Whatever the text, a clause that is read from it is written in it, with quotable texts between its
quotation marks. The converse needs that the list of platforms folds singly; in a text that does so
throughout, a clause is read exactly if the grammar derives the text.
-/

namespace DependencyClause

open Text Cursor

namespace Clause

/-- Behind blanks, a list of platforms is no part of a version. -/
private theorem not_mem_versionCharacters_of_written {r : PlatformRestriction} {s v w : List Char}
    (hr : r.Written s) (hv : IsBlankRun v) (hw : IsBlankRun w) :
    ∀ x ∈ (v ++ s ++ w).head?, x ∉ CharSet.versionCharacters := by
  have hblank : ∀ x, x ∈ CharSet.blanks → x ∉ CharSet.versionCharacters :=
    fun x hb hm => not_mem_blanks_of_mem_versionCharacters hm hb
  intro x hx
  cases v with
  | cons y v => exact hblank x (hv x (List.mem_of_mem_head? hx))
  | nil =>
    by_cases h : r = .unrestricted
    · subst h
      cases hr
      exact hblank x (hw x (List.mem_of_mem_head? hx))
    · obtain ⟨s', rfl⟩ := PlatformRestriction.exists_cons_of_written h hr
      rw [← Option.some.inj hx]
      exact not_mem_versionCharacters_of_mem_marks List.mem_cons_self

section Reading

variable [VersionLibrary] {c : Cursor} {k : Clause} {t : List Char}

/-- A clause is read from a text if its two parts are, one behind the other, and nothing follows. -/
theorem read_iff : (read t).outcome = .value k ↔
    ∃ d e, VersionConstraint.parser.Reads { text := t } k.constraint d ∧
      PlatformRestriction.parser.Reads d k.platforms e ∧ e.isAtEnd = true := by
  rw [read, Parser.outcome_eq_value_iff]
  simp only [complete, parser, Parser.reads_noting, Parser.reads_bind, Parser.reads_pure,
    Parser.reads_atEnd, Parser.reads_ite, Parser.not_reads_reject]
  constructor
  · rintro ⟨e, k', e₁, ⟨q, d, hq, r, e₂, hr, rfl, rfl⟩, b, e₃, ⟨rfl, rfl⟩, h⟩
    by_cases hend : e₃.isAtEnd = true
    · rw [if_pos hend] at h
      obtain ⟨rfl, rfl⟩ := h
      exact ⟨d, e, hq, hr, hend⟩
    · rw [if_neg hend] at h
      exact h.elim
  · rintro ⟨d, e, hq, hr, hend⟩
    refine ⟨e, k, e, ⟨_, d, hq, _, e, hr, rfl, rfl⟩, _, e, ⟨rfl, rfl⟩, ?_⟩
    rw [if_pos hend]
    exact ⟨rfl, rfl⟩

/-- A clause that is read is written in the text. -/
theorem written_of_read (h : (read t).outcome = .value k) : k.Written Quotable t := by
  obtain ⟨d, e, hq, hr, hend⟩ := read_iff.mp h
  have hc := plain_fresh t
  obtain ⟨u, s, hu, hs, hd⟩ := VersionConstraint.exists_written_of_parser_reads hc (inText_fresh t)
    (aligned_fresh t) hq
  have hdc := hc.of_passes hd
  obtain ⟨v, t', hv, ht, he⟩ := PlatformRestriction.exists_written_of_parser_reads hdc hr
  have hin : e.InText := he.inText (hd.inText (inText_fresh t))
  have hw := ((hdc.of_passes he).isAtEnd_iff hin).mp hend
  have htext : t = u ++ s ++ v ++ t' ++ e.remaining := by
    have hall := (hd.append he).remaining_eq
    change t = _ at hall
    simpa using hall
  rw [htext]
  exact .intro hu hs hv ht hw

/-- A constraint that is written before a list of platforms is read, and leaves nothing but blanks
before the list. -/
private theorem exists_constraint_reads {q : VersionConstraint} {r : PlatformRestriction}
    {s u v w : List Char} (hc : c.Plain) (hin : c.InText) (ha : c.Aligned) (hu : IsBlankRun u)
    (hq : q.Written Quotable s) (hv : IsBlankRun v) (hr : r.Written t) (hw : IsBlankRun w)
    (hrem : c.remaining = u ++ s ++ (v ++ t ++ w)) :
    ∃ d v', VersionConstraint.parser.Reads c q d ∧ d.Plain ∧ d.InText ∧ IsBlankRun v' ∧
      d.remaining = v' ++ t ++ w := by
  by_cases hany : q = .any
  · subst hany
    cases hq
    have hsplit : c.remaining = u ++ v ++ t ++ w := by simpa using hrem
    have huv := hu.append hv
    have hhead := PlatformRestriction.eq_at_of_head?_ahead hr hc huv hw hsplit
    exact ⟨c, u ++ v, VersionConstraint.parser_reads_any hhead, hc, hin, huv, hsplit⟩
  · obtain ⟨d, hd, hdrem⟩ := exists_passes hrem
    have hfollow := not_mem_versionCharacters_of_written hr hv hw
    rw [← hdrem] at hfollow
    have hread := VersionConstraint.parser_reads_of_written hany hq hc hin ha hu hd hfollow
    exact ⟨d, v, hread, hc.of_passes hd, hd.inText hin, hv, hdrem⟩

/-- A clause that is written in a text is read from it, if its list of platforms folds singly. -/
theorem read_of_written {s u v w : List Char} (hu : IsBlankRun u)
    (hs : k.constraint.Written Quotable s) (hv : IsBlankRun v) (ht : k.platforms.Written t)
    (hw : IsBlankRun w) (hf : ∀ x ∈ t, FoldsSingly x) :
    (read (u ++ s ++ v ++ t ++ w)).outcome = .value k := by
  have hsplit : Cursor.remaining { text := u ++ s ++ v ++ t ++ w } = u ++ s ++ (v ++ t ++ w) := by
    rw [← List.append_assoc, ← List.append_assoc]
    rfl
  obtain ⟨d, v', hq, hdc, hdin, hv', hd⟩ := exists_constraint_reads (plain_fresh _) (inText_fresh _)
    (aligned_fresh _) hu hs hv ht hw hsplit
  obtain ⟨e, hr, hec, hein, he⟩ := PlatformRestriction.exists_parser_reads ht hf hdc hdin hv' hw hd
  exact read_iff.mpr ⟨d, e, hq, hr, (hec.isAtEnd_iff hein).mpr he⟩

/-- From a text that folds singly a clause is read exactly if the grammar derives the text, with no
mark within a quotation. -/
theorem read_eq_value_iff_written (h : ∀ x ∈ t, FoldsSingly x) :
    (read t).outcome = .value k ↔ k.Written (fun r => '"' ∉ r) t := by
  have hquoted : ∀ {s r : List Char}, s ⊆ t → '"' :: r ++ ['"'] = s →
      (Quotable r ↔ '"' ∉ r) := by
    rintro s r hs rfl
    refine quotable_iff_not_mem fun x hx => h x (hs ?_)
    simp [hx]
  constructor
  · intro hread
    obtain ⟨hu, hs, hv, ht, hw⟩ := written_of_read hread
    refine .intro hu (hs.imp fun r hr hq => (hquoted ?_ hr).mp hq) hv ht hw
    intro x hx
    simp [hx]
  · rintro ⟨hu, hs, hv, ht, hw⟩
    refine read_of_written hu (hs.imp fun r hr hq => (hquoted ?_ hr).mpr hq) hv ht hw ?_
    · intro x hx
      simp [hx]
    · intro x hx
      exact h x (by simp [hx])

end Reading

/-- A comparison behind a tab, with a list that names one of its platforms twice. -/
theorem written_compatible_on_two :
    (∀ x ∈ "\t~>1.2 @Platforms[iOS, LINUX ,ios]\n".toList, FoldsSingly x) ∧
      Written (fun r => '"' ∉ r)
        { constraint := .comparison .compatibleWith (SemanticVersion.mk 1 2 0 [] [])
          platforms := .among (.ofList [.linux, .ios]) }
        "\t~>1.2 @Platforms[iOS, LINUX ,ios]\n".toList :=
  ⟨forall_mem_of_all (by decide),
    (read_eq_value_iff_written (forall_mem_of_all (by decide))).mp (by decide +kernel)⟩

end Clause

end DependencyClause
