import DependencyClause.Clause
import DependencyClause.Proofs.Grammar.Tokens
import DependencyClause.Proofs.Parser.Return

/-!
# Reading pins

A pin is read between quotation marks, or bare up to the next blank; what is read bare starts with
no reserved character.
-/

namespace DependencyClause

open Text Cursor

variable {c d : Cursor}

namespace Pin

variable {p : Pin} {s w : List Char}

/-- A bare pin is read as a run up to the next blank. -/
theorem bare_reads_iff : bare.Reads c p d ↔
    c.runUpTo? .blanks = some (p.commitish, d) ∧ startsReserved p.commitish = false := by
  rw [Parser.Reads, run_bare, bare?]
  cases hr : c.runUpTo? .blanks with
  | none =>
    simp only [Option.bind_none]
    split
    · simp
    · simp
  | some found =>
    obtain ⟨t, e⟩ := found
    obtain ⟨u⟩ := p
    simp only [Option.bind_some, if_pos (inText_of_runWhile? hr)]
    by_cases htu : t = u
    · subst htu
      cases hs : startsReserved t with
      | true => simp
      | false => simp
    · cases startsReserved t with
      | true => simp [htu]
      | false => simp [htu]

/-- A pin is read as a quotation that is not empty, or bare. -/
theorem parser_reads_iff : parser.Reads c p d ↔
    (p.commitish ≠ [] ∧
      ∃ e, c.literal? ['"'] = some e ∧ Parser.quotation.Reads e p.commitish d) ∨
    (c.literal? ['"'] = none ∧ c.runUpTo? .blanks = some (p.commitish, d) ∧
      startsReserved p.commitish = false) := by
  simp only [parser, Parser.reads_bind, Parser.reads_literal, Parser.reads_ite, bare_reads_iff]
  constructor
  · rintro ⟨m, e, ⟨rfl, hm⟩ | ⟨rfl, hm, rfl⟩, h⟩
    · rw [if_pos rfl] at h
      obtain ⟨body, e', hb, h⟩ := h
      by_cases hnil : body = []
      · rw [if_pos hnil] at h
        exact (Parser.not_reads_reject h).elim
      · rw [if_neg hnil] at h
        obtain ⟨rfl, rfl⟩ := Parser.reads_pure.mp h
        exact Or.inl ⟨hnil, e, hm, hb⟩
    · rw [if_neg Bool.false_ne_true] at h
      exact Or.inr ⟨hm, h⟩
  · rintro (⟨hne, e, hm, hb⟩ | ⟨hm, h⟩)
    · refine ⟨true, e, Or.inl ⟨rfl, hm⟩, ?_⟩
      rw [if_pos rfl]
      refine ⟨p.commitish, d, hb, ?_⟩
      rw [if_neg hne]
      exact Parser.reads_pure.mpr ⟨rfl, rfl⟩
    · refine ⟨false, c, Or.inr ⟨rfl, hm, rfl⟩, ?_⟩
      rwa [if_neg Bool.false_ne_true]

/-- A pin that can stand between quotation marks is read where it does. -/
theorem parser_reads_quoted (hc : c.Plain) (hin : c.InText) (ha : c.Aligned) (hne : s ≠ [])
    (hs : Quotable s) (hw : IsBlankRun w) (hp : c.Passes (w ++ ('"' :: s ++ ['"'])) d) :
    parser.Reads c ⟨s⟩ d :=
  parser_reads_iff.mpr (Or.inl ⟨hne, (hc.quoted_reads_iff hin ha).mpr ⟨hs, w, hw, hp⟩⟩)

/-- What is read as a pin from a quotation mark on can stand between quotation marks. -/
theorem quotable_of_parser_reads {u : List Char} (hc : c.Plain) (hin : c.InText) (ha : c.Aligned)
    (hmark : c.remaining = '"' :: u) (h : parser.Reads c p d) : Quotable p.commitish := by
  have hahead : c.ahead = '"' :: u := by
    refine (hc.skipped_eq (w := []) nofun (fun x hx => ?_) hmark).2
    rw [← Option.some.inj hx]
    decide
  rcases parser_reads_iff.mp h with ⟨-, hq⟩ | ⟨hnone, -, -⟩
  · exact ((hc.quoted_reads_iff hin ha).mp hq).1
  · rw [literal?_marks_eq_none_iff forall_isMark_quote nofun, hahead] at hnone
    exact absurd ⟨u, rfl⟩ hnone

/-- A text that needs no quotation marks starts with no reserved character and holds no blank. -/
theorem needsQuotes_eq_false_iff :
    needsQuotes s = false ↔ startsReserved s = false ∧ ∀ x ∈ s, x ∉ CharSet.blanks := by
  rw [needsQuotes, Bool.or_eq_false_iff, List.any_eq_false]
  simp

/-- A pin that needs no quotation marks is read bare, up to a blank or to the end. -/
theorem parser_reads_bare (hc : c.Plain) (hne : s ≠ []) (hs : needsQuotes s = false)
    (hp : c.Passes s d) (hd : ∀ x ∈ d.remaining.head?, x ∈ CharSet.blanks) :
    parser.Reads c ⟨s⟩ d := by
  obtain ⟨hreserved, hblank⟩ := needsQuotes_eq_false_iff.mp hs
  obtain ⟨y, t, rfl⟩ := List.exists_cons_of_ne_nil hne
  have hhead : ∀ x ∈ (y :: t).head?, x ∉ CharSet.blanks := by
    intro x hx
    exact hblank x (List.mem_of_mem_head? hx)
  have hskipped : c.skipped = [] := hc.skipped_of_passes (w := []) nofun hp hne hhead
  have hpass : c.Passes (c.skipped ++ (y :: t)) d := by
    rw [hskipped]
    exact hp
  have hnone : c.literal? ['"'] = none := by
    apply literal?_eq_none_of_head? isMark_quote
    rw [hpass.ahead_eq]
    intro hq
    obtain rfl := Option.some.inj hq
    exact absurd hreserved (by simp [startsReserved])
  have hrun : c.runUpTo? .blanks = some (y :: t, d) := by
    rw [runUpTo?, runWhile?_eq_some_iff]
    refine ⟨hpass, hne, fun x hx => ?_, fun x hx => ?_⟩
    · simpa using hblank x hx
    · simpa using hd x hx
  exact parser_reads_iff.mpr (Or.inr ⟨hnone, hrun, hreserved⟩)

/-- The text writes the pin, if texts with the property `quotable` may stand between quotation
marks. -/
inductive Written (quotable : List Char → Prop) (p : Pin) : List Char → Prop where
  /-- Bare, if it needs no quotation marks. -/
  | bare (hne : p.commitish ≠ []) (hb : needsQuotes p.commitish = false) :
      Written quotable p p.commitish
  /-- Between quotation marks, verbatim. -/
  | quoted (hne : p.commitish ≠ []) (hq : quotable p.commitish) :
      Written quotable p ('"' :: p.commitish ++ ['"'])

/-- However a pin is written, its commit is a part of the text. -/
theorem Written.subset {P : List Char → Prop} {t : List Char} (h : p.Written P t) :
    p.commitish ⊆ t := by
  cases h with
  | bare => exact List.Subset.refl _
  | quoted => exact fun x hx => by simp [hx]

/-- What is read as a pin is written behind blanks. -/
theorem exists_written_of_parser_reads (hc : c.Plain) (hin : c.InText) (ha : c.Aligned)
    (h : parser.Reads c p d) :
    ∃ w t, IsBlankRun w ∧ p.Written Quotable t ∧ c.Passes (w ++ t) d := by
  rcases parser_reads_iff.mp h with ⟨hne, hq⟩ | ⟨-, hrun, hreserved⟩
  · obtain ⟨hquotable, w, hw, hp⟩ := (hc.quoted_reads_iff hin ha).mp hq
    exact ⟨w, _, hw, .quoted hne hquotable, hp⟩
  · obtain ⟨hp, hne, hblank, -⟩ := runWhile?_eq_some_iff.mp hrun
    have hbare : needsQuotes p.commitish = false :=
      needsQuotes_eq_false_iff.mpr ⟨hreserved, fun x hx => by simpa using hblank x hx⟩
    exact ⟨c.skipped, _, hc.isBlankRun_skipped, .bare hne hbare, hp⟩

end Pin

/-- A resolved pin is read as a pin and the platforms behind it. -/
theorem ResolvedPin.parser_reads_iff {r : ResolvedPin} : ResolvedPin.parser.Reads c r d ↔
    ∃ e, Pin.parser.Reads c r.pin e ∧ PlatformRestriction.parser.Reads e r.platforms d := by
  simp only [parser, Parser.reads_bind, Parser.reads_pure]
  constructor
  · rintro ⟨p, e, hp, q, e', hq, rfl, rfl⟩
    exact ⟨e, hp, hq⟩
  · rintro ⟨e, hp, hq⟩
    exact ⟨_, e, hp, _, d, hq, rfl, rfl⟩

end DependencyClause
