import DependencyClause.Constraint
import DependencyClause.Proofs.Grammar.Tokens
import DependencyClause.Proofs.Parser.Return

/-!
# Reading version constraints

A constraint is read wherever it is written and no further version character follows it. A text
between quotation marks may be any quotable one, so that a constraint is read from every text, and
not only from those that fold singly.
-/

namespace DependencyClause

open Text Cursor

namespace Comparison

theorem isMark_of_mem_symbol (c : Comparison) : ∀ x ∈ c.symbol.toList, IsMark x := by
  cases c <;> exact forall_mem_of_all (by decide)

theorem symbol_ne_nil (c : Comparison) : c.symbol.toList ≠ [] := by
  cases c <;> decide

theorem symbol_head?_not_mem_blanks (c : Comparison) :
    ∀ x ∈ c.symbol.toList.head?, x ∉ CharSet.blanks := by
  have hall : ∀ x ∈ c.symbol.toList, x ∉ CharSet.blanks := by
    cases c <;> exact forall_mem_of_all (by decide)
  exact fun x hx => hall x (List.mem_of_mem_head? hx)

end Comparison

/-- Version characters are no blanks. -/
theorem not_mem_blanks_of_mem_versionCharacters {x : Char} (h : x ∈ CharSet.versionCharacters) :
    x ∉ CharSet.blanks := by
  have hall : ∀ x ∈ CharSet.versionCharacters, x ∉ CharSet.blanks :=
    forall_mem_ofList_of_all (by decide)
  exact hall x h

/-- The marks that open the other constraints and the list of platforms are no version
characters. -/
theorem not_mem_versionCharacters_of_mem_marks {x : Char} (h : x ∈ ['@', '"', '=', '>', '~']) :
    x ∉ CharSet.versionCharacters := by
  have hall : ∀ x ∈ CharSet.versionCharacters, x ∉ ['@', '"', '=', '>', '~'] :=
    forall_mem_ofList_of_all (by decide)
  exact fun hx => hall x hx h

namespace VersionConstraint

variable {c d : Cursor} {p : Comparison} {s t w : List Char}

theorem unambiguous_symbols : Unambiguous symbols := by decide

theorem mem_symbols : (s, p) ∈ symbols ↔ s = p.symbol.toList := by
  rw [symbols, List.mem_map]
  constructor
  · rintro ⟨q, -, hq⟩
    rw [Prod.mk.injEq] at hq
    obtain ⟨rfl, rfl⟩ := hq
    rfl
  · rintro rfl
    exact ⟨p, p.mem_all, rfl⟩

/-- A comparison is chosen where its symbol stands behind blanks. -/
theorem choose?_symbols_iff (hc : c.Plain) : c.choose? symbols = some (p, d) ↔
    ∃ w, IsBlankRun w ∧ c.Passes (w ++ p.symbol.toList) d := by
  rw [unambiguous_symbols.choose?_eq_some_iff]
  simp only [mem_symbols, exists_eq_left]
  exact hc.literal?_marks_iff p.isMark_of_mem_symbol p.symbol_ne_nil p.symbol_head?_not_mem_blanks

/-- No comparison is chosen where none of the symbols can start. -/
theorem choose?_symbols_eq_none (h : ∀ x ∈ c.ahead.head?, x ∉ ['=', '>', '~']) :
    c.choose? symbols = none := by
  rw [choose?_eq_none_iff]
  rintro ⟨s, q⟩ hq
  obtain rfl := mem_symbols.mp hq
  have hhead : ∀ x ∈ ['=', '>', '~'], c.ahead.head? ≠ some x := fun x hx hs => h x hs hx
  cases q with
  | exactly => exact literal?_eq_none_of_head? (by decide) (hhead '=' (by decide))
  | atLeast => exact literal?_eq_none_of_head? (by decide) (hhead '>' (by decide))
  | compatibleWith => exact literal?_eq_none_of_head? (by decide) (hhead '~' (by decide))

/-- A run of version characters stands behind blanks, and no further one follows it. -/
theorem run?_versionCharacters_iff (hc : c.Plain) :
    c.run? .versionCharacters = some (t, d) ↔
      (∃ w, IsBlankRun w ∧ c.Passes (w ++ t) d) ∧ t ≠ [] ∧
        (∀ x ∈ t, x ∈ CharSet.versionCharacters) ∧
          ∀ x ∈ d.remaining.head?, x ∉ CharSet.versionCharacters := by
  rw [run?_eq_some_iff]
  refine and_congr_left ?_
  rintro ⟨hne, ht, -⟩
  constructor
  · exact fun h => ⟨c.skipped, hc.isBlankRun_skipped, h⟩
  · rintro ⟨w, hw, h⟩
    have hhead : ∀ x ∈ t.head?, x ∉ CharSet.blanks :=
      fun x hx => not_mem_blanks_of_mem_versionCharacters (ht x (List.mem_of_mem_head? hx))
    rwa [hc.skipped_of_passes hw h hne hhead]

variable [VersionLibrary] {k : VersionConstraint}

/-- Behind the symbol of a comparison a version is read. -/
theorem operand_reads_iff : (operand p).Reads c k d ↔ ∃ t v,
    c.run? .versionCharacters = some (t, d) ∧ Version.ofTag? t = some v ∧ k = comparison p v := by
  simp only [operand, Parser.reads_bind, Parser.reads_scan]
  constructor
  · rintro ⟨o, e, ⟨t, rfl, ht⟩ | ⟨rfl, -, rfl⟩, h⟩
    · cases hv : Version.ofTag? t with
      | none => simp [hv] at h
      | some v =>
        simp only [hv, Parser.reads_pure] at h
        obtain ⟨rfl, rfl⟩ := h
        exact ⟨t, v, ht, hv, rfl⟩
    · exact (Parser.not_reads_reject h).elim
  · rintro ⟨t, v, ht, hv, rfl⟩
    refine ⟨some t, d, Or.inl ⟨t, rfl, ht⟩, ?_⟩
    simp only [hv, Parser.reads_pure, and_self]

/-- A bare version is read where there is one; where there is none the cursor stays. -/
theorem bareVersion_reads_iff : bareVersion.Reads c k d ↔
    (∃ t v, c.run? .versionCharacters = some (t, d) ∧ Version.ofTag? t = some v ∧
      k = comparison .exactly v) ∨
    (∀ t e, c.run? .versionCharacters = some (t, e) → Version.ofTag? t = none) ∧ k = any ∧
      d = c := by
  rw [Parser.Reads, run_bareVersion, bare?]
  cases hr : c.run? .versionCharacters with
  | none => simp [eq_comm]
  | some found =>
    obtain ⟨t, e⟩ := found
    cases hv : Version.ofTag? t with
    | none => simp [hv, eq_comm]
    | some v =>
      simp only [hv, Option.bind_some, Option.map_some, Outcome.value.injEq]
      constructor
      · rintro ⟨rfl, rfl⟩
        exact Or.inl ⟨t, v, rfl, hv, rfl⟩
      · rintro (⟨t', v', ht', hv', rfl⟩ | ⟨hno, -, -⟩)
        · obtain ⟨rfl, rfl⟩ := Prod.mk.inj (Option.some.inj ht')
          exact ⟨congrArg _ (Option.some.inj (hv.symm.trans hv')), rfl⟩
        · cases hv.symm.trans (hno t e rfl)

/-- A constraint is read as a comparison, as a quotation or as a bare version, in this order. -/
theorem parser_reads_iff : parser.Reads c k d ↔
    (∃ p e, c.choose? symbols = some (p, e) ∧ (operand p).Reads e k d) ∨
    (c.choose? symbols = none ∧
      ((∃ e r, c.literal? ['"'] = some e ∧ Parser.quotation.Reads e r d ∧ k = reference r) ∨
        c.literal? ['"'] = none ∧ bareVersion.Reads c k d)) := by
  simp only [parser, Parser.reads_noting, Parser.reads_bind, Parser.reads_scan]
  constructor
  · rintro ⟨o, e, ⟨p, rfl, hp⟩ | ⟨rfl, hn, rfl⟩, h⟩
    · exact Or.inl ⟨p, e, hp, h⟩
    · refine Or.inr ⟨hn, ?_⟩
      simp only [Parser.reads_bind, Parser.reads_literal, Parser.reads_ite, Parser.reads_pure] at h
      obtain ⟨m, e₁, ⟨rfl, hm⟩ | ⟨rfl, hm, rfl⟩, h⟩ := h
      · rw [if_pos rfl] at h
        obtain ⟨r, e₂, hr, rfl, rfl⟩ := h
        exact Or.inl ⟨e₁, r, hm, hr, rfl⟩
      · rw [if_neg Bool.false_ne_true] at h
        exact Or.inr ⟨hm, h⟩
  · rintro (⟨p, e, hp, h⟩ | ⟨hn, h⟩)
    · exact ⟨some p, e, Or.inl ⟨p, rfl, hp⟩, h⟩
    · refine ⟨none, c, Or.inr ⟨rfl, hn, rfl⟩, ?_⟩
      simp only [Parser.reads_bind, Parser.reads_literal, Parser.reads_ite, Parser.reads_pure]
      rcases h with ⟨e, r, hm, hr, rfl⟩ | ⟨hm, h⟩
      · refine ⟨true, e, Or.inl ⟨rfl, hm⟩, ?_⟩
        rw [if_pos rfl]
        exact ⟨r, d, hr, rfl, rfl⟩
      · refine ⟨false, c, Or.inr ⟨rfl, hm, rfl⟩, ?_⟩
        rw [if_neg Bool.false_ne_true]
        exact h

/-- Where any version will do, the cursor has stayed. -/
theorem eq_of_parser_reads_any (h : parser.Reads c any d) : d = c := by
  rcases parser_reads_iff.mp h with ⟨p, e, -, h⟩ | ⟨-, ⟨e, r, -, -, hr⟩ | ⟨-, h⟩⟩
  · obtain ⟨t, v, -, -, hv⟩ := operand_reads_iff.mp h
    exact absurd hv nofun
  · exact absurd hr nofun
  · rcases bareVersion_reads_iff.mp h with ⟨t, v, -, -, hv⟩ | ⟨-, -, rfl⟩
    · exact absurd hv nofun
    · rfl

/-- Where nothing but a list of platforms lies ahead, any version will do and the cursor stays. -/
theorem parser_reads_any (h : ∀ x ∈ c.ahead.head?, x = '@') :
    parser.Reads c any c := by
  have hsymbol : c.choose? symbols = none := by
    apply choose?_symbols_eq_none
    intro x hx
    rw [h x hx]
    decide
  have hquote : c.literal? ['"'] = none := by
    apply literal?_eq_none_of_head? isMark_quote
    intro hq
    exact absurd (h '"' hq) (by decide)
  have hrun : c.run? .versionCharacters = none := by
    rw [run?_eq_none_iff]
    intro x hx
    rw [h x hx]
    decide
  refine parser_reads_iff.mpr (Or.inr ⟨hsymbol, Or.inr ⟨hquote, ?_⟩⟩)
  refine bareVersion_reads_iff.mpr (Or.inr ⟨fun t e ht => ?_, rfl, rfl⟩)
  exact absurd (hrun.symm.trans ht) nofun

/-- The symbol of a comparison and a version behind it are read. -/
theorem parser_reads_comparison {u : List Char} {v : Version} (hc : c.Plain)
    (hw : IsBlankRun w) (hu : IsBlankRun u) (ht : v.Written t)
    (hp : c.Passes (w ++ (p.symbol.toList ++ u ++ t)) d)
    (hd : ∀ x ∈ d.remaining.head?, x ∉ CharSet.versionCharacters) :
    parser.Reads c (comparison p v) d := by
  rw [List.append_assoc, ← List.append_assoc] at hp
  obtain ⟨e, he, hp⟩ := hp.split
  have hsymbol : c.choose? symbols = some (p, e) := (choose?_symbols_iff hc).mpr ⟨w, hw, he⟩
  have hrun : e.run? .versionCharacters = some (t, d) :=
    (run?_versionCharacters_iff (hc.of_passes he)).mpr ⟨⟨u, hu, hp⟩, ht.ne_nil, ht.characters, hd⟩
  have hread : (operand p).Reads e (comparison p v) d :=
    operand_reads_iff.mpr ⟨t, v, hrun, ht.names, rfl⟩
  exact parser_reads_iff.mpr (Or.inl ⟨p, e, hsymbol, hread⟩)

/-- A bare version is read, and compared exactly. -/
private theorem parser_reads_bare {v : Version} (hc : c.Plain) (hw : IsBlankRun w)
    (ht : v.Written t) (hp : c.Passes (w ++ t) d)
    (hd : ∀ x ∈ d.remaining.head?, x ∉ CharSet.versionCharacters) :
    parser.Reads c (comparison .exactly v) d := by
  have hrun : c.run? .versionCharacters = some (t, d) :=
    (run?_versionCharacters_iff hc).mpr ⟨⟨w, hw, hp⟩, ht.ne_nil, ht.characters, hd⟩
  have hhead : ∀ x ∈ c.ahead.head?, x ∈ CharSet.versionCharacters := by
    intro x hx
    obtain ⟨y, r, rfl⟩ := List.exists_cons_of_ne_nil ht.ne_nil
    rw [(run?_eq_some_iff.mp hrun).1.ahead_eq] at hx
    rw [← Option.some.inj hx]
    exact ht.characters y List.mem_cons_self
  have hsymbol : c.choose? symbols = none := by
    apply choose?_symbols_eq_none
    intro x hx hm
    have hmark : x ∈ ['@', '"', '=', '>', '~'] :=
      List.mem_cons_of_mem _ (List.mem_cons_of_mem _ hm)
    exact not_mem_versionCharacters_of_mem_marks hmark (hhead x hx)
  have hquote : c.literal? ['"'] = none := by
    apply literal?_eq_none_of_head? isMark_quote
    intro hq
    exact not_mem_versionCharacters_of_mem_marks (by decide) (hhead '"' hq)
  have hread := bareVersion_reads_iff.mpr (Or.inl ⟨t, v, hrun, ht.names, rfl⟩)
  exact parser_reads_iff.mpr (Or.inr ⟨hsymbol, Or.inr ⟨hquote, hread⟩⟩)

/-- A quotable text between quotation marks is read as a reference. -/
private theorem parser_reads_reference {r : List Char} (hc : c.Plain) (hin : c.InText)
    (ha : c.Aligned) (hw : IsBlankRun w) (hr : Quotable r)
    (hp : c.Passes (w ++ ('"' :: r ++ ['"'])) d) : parser.Reads c (reference r) d := by
  obtain ⟨e, hquote, hread⟩ := (hc.quoted_reads_iff hin ha).mpr ⟨hr, w, hw, hp⟩
  have hsymbol : c.choose? symbols = none := by
    apply choose?_symbols_eq_none
    intro x hx
    have hq := (literal?_marks_eq_some_iff forall_isMark_quote nofun).mp hquote
    rw [hq.ahead_eq] at hx
    rw [← Option.some.inj hx]
    decide
  exact parser_reads_iff.mpr (Or.inr ⟨hsymbol, Or.inl ⟨e, r, hquote, hread, rfl⟩⟩)

/-- A constraint that is written behind blanks is read, if no version character follows it. -/
theorem parser_reads_of_written (hk : k ≠ any) (h : k.Written Quotable s) (hc : c.Plain)
    (hin : c.InText) (ha : c.Aligned) (hw : IsBlankRun w) (hp : c.Passes (w ++ s) d)
    (hd : ∀ x ∈ d.remaining.head?, x ∉ CharSet.versionCharacters) : parser.Reads c k d := by
  cases h with
  | any => exact absurd rfl hk
  | comparison hu ht => exact parser_reads_comparison hc hw hu ht hp hd
  | bare ht => exact parser_reads_bare hc hw ht hp hd
  | reference hr => exact parser_reads_reference hc hin ha hw hr hp

/-- What is read as a version is written as one behind blanks. -/
theorem exists_written_of_run? {v : Version} (hc : c.Plain)
    (h : c.run? .versionCharacters = some (t, d)) (hv : Version.ofTag? t = some v) :
    v.Written t ∧ ∃ w, IsBlankRun w ∧ c.Passes (w ++ t) d := by
  obtain ⟨hp, hne, ht, -⟩ := (run?_versionCharacters_iff hc).mp h
  exact ⟨⟨hne, ht, hv⟩, hp⟩

/-- What is read as a constraint is written as one, whatever the text. -/
theorem exists_written_of_parser_reads (hc : c.Plain) (hin : c.InText) (ha : c.Aligned)
    (h : parser.Reads c k d) :
    ∃ w s, IsBlankRun w ∧ k.Written Quotable s ∧ c.Passes (w ++ s) d := by
  rcases parser_reads_iff.mp h with ⟨p, e, hp, h⟩ | ⟨-, ⟨e, r, hq, hr, rfl⟩ | ⟨-, h⟩⟩
  · obtain ⟨w, hw, he⟩ := (choose?_symbols_iff hc).mp hp
    obtain ⟨t, v, hrun, hv, rfl⟩ := operand_reads_iff.mp h
    obtain ⟨ht, u, hu, hd⟩ := exists_written_of_run? (hc.of_passes he) hrun hv
    refine ⟨w, _, hw, .comparison hu ht, ?_⟩
    have hpass := he.append hd
    simpa using hpass
  · obtain ⟨hr, w, hw, hd⟩ := (hc.quoted_reads_iff hin ha).mp ⟨e, hq, hr⟩
    exact ⟨w, _, hw, .reference hr, hd⟩
  · rcases bareVersion_reads_iff.mp h with ⟨t, v, hrun, hv, rfl⟩ | ⟨-, rfl, rfl⟩
    · obtain ⟨ht, w, hw, hd⟩ := exists_written_of_run? hc hrun hv
      exact ⟨w, t, hw, .bare ht, hd⟩
    · exact ⟨[], [], nofun, .any, .refl _⟩

end VersionConstraint

end DependencyClause
