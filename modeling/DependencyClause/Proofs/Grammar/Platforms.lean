import DependencyClause.Proofs.Grammar.Tokens
import DependencyClause.Proofs.Parser.Reads
import DependencyClause.Restriction

/-!
# Reading platforms and lists of platforms

No spelling of a platform begins another one, so a platform is read wherever one of its spellings
lies ahead. Lists are read item by item: what is read in the end are the platforms that the list
names, however often and in whatever order.
-/

namespace DependencyClause

open Text Cursor

namespace Platform

variable {p : Platform} {c d : Cursor} {t w : List Char}

theorem unambiguous_vocabulary : Unambiguous vocabulary := by decide +kernel

/-- Spellings fold singly, and hold letters only. -/
theorem foldsSingly_of_mem_spellings {s : List Char} (h : s ∈ p.spellings) :
    ∀ x ∈ s, FoldsSingly x := by
  have hall : ∀ s ∈ p.spellings, s.all (FoldsSingly ·) = true := by cases p <;> decide
  exact forall_mem_of_all (hall s h)

theorem not_isMark_of_mem_fold_spelling {s : List Char} (h : s ∈ p.spellings) :
    ∀ x ∈ fold s, ¬ IsMark x := by
  have hall : ∀ s ∈ p.spellings, (fold s).all (¬ IsMark ·) = true := by cases p <;> decide
  exact forall_mem_of_all (hall s h)

/-- A written platform is no blank, bracket or other mark. -/
theorem Written.not_isMark (h : p.Written t) : ∀ x ∈ t, ¬ IsMark x := by
  obtain ⟨s, hs, hf⟩ := h
  intro x hx hm
  have hmem : x ∈ fold t := hm.mem_fold_iff.mpr hx
  rw [hf] at hmem
  exact not_isMark_of_mem_fold_spelling hs x hmem hm

theorem Written.not_mem_blanks_head? (h : p.Written t) : ∀ x ∈ t.head?, x ∉ CharSet.blanks :=
  fun x hx hb => h.not_isMark x (List.mem_of_mem_head? hx) (isMark_of_mem_blanks hb)

/-- A platform is found where one of its spellings lies ahead, whatever its case. -/
theorem find?_eq_some_iff : find? vocabulary c = some (p, d) ↔
    ∃ s ∈ p.spellings, ∃ e, ({ c with caseSensitive := false } : Cursor).literal? s = some e ∧
      d = { e with caseSensitive := c.caseSensitive } := by
  simp only [find?, Option.map_eq_some_iff, Prod.exists, Prod.mk.injEq,
    unambiguous_vocabulary.choose?_eq_some_iff, mem_vocabulary]
  constructor
  · rintro ⟨q, e, ⟨s, hs, he⟩, rfl, rfl⟩
    exact ⟨s, hs, e, he, rfl⟩
  · rintro ⟨s, hs, e, he, rfl⟩
    exact ⟨p, e, ⟨s, hs, he⟩, rfl, rfl⟩

/-- A platform is read where it is found. -/
theorem parser_reads_iff_find? : parser.Reads c p d ↔ find? vocabulary c = some (p, d) := by
  rw [Parser.Reads, parser, parserFor_run]
  cases h : find? vocabulary c with
  | none => simp
  | some found =>
    obtain ⟨q, e⟩ := found
    simp

/-- Where case does not count anyway, its spellings are sought as they are. -/
theorem parser_reads_iff (hc : c.Plain) :
    parser.Reads c p d ↔ ∃ s ∈ p.spellings, c.literal? s = some d := by
  have hcc : ({ c with caseSensitive := false } : Cursor) = c := by
    rw [← hc.case_eq]
  have hrestored : ∀ {s e}, c.literal? s = some e →
      ({ e with caseSensitive := c.caseSensitive } : Cursor) = e :=
    fun h => by rw [literal?_eq h]
  rw [parser_reads_iff_find?, find?_eq_some_iff, hcc]
  constructor
  · rintro ⟨s, hs, e, he, rfl⟩
    exact ⟨s, hs, (hrestored he).symm ▸ he⟩
  · rintro ⟨s, hs, hd⟩
    exact ⟨s, hs, d, hd, (hrestored hd).symm⟩

/-- Where no platform is read, the cursor stays. -/
theorem cursor_parser_eq (h : ∀ p, (parser.run c).outcome ≠ .value p) :
    (parser.run c).cursor = c := by
  rw [parser, parserFor_run] at h ⊢
  cases hf : find? vocabulary c with
  | none => rfl
  | some found =>
    obtain ⟨q, e⟩ := found
    rw [hf] at h
    exact absurd rfl (h q)

/-- A platform that is written behind blanks, in characters that fold singly, is read. -/
theorem parser_reads_of_written (hc : c.Plain) (hw : IsBlankRun w) (hp : p.Written t)
    (ht : ∀ x ∈ t, FoldsSingly x) (h : c.Passes (w ++ t) d) : parser.Reads c p d := by
  have hb := hp.not_mem_blanks_head?
  obtain ⟨s, hs, hf⟩ := hp
  refine (parser_reads_iff hc).mpr ⟨s, hs, ?_⟩
  exact hc.literal?_of_fold_eq hw (ne_nil_of_mem_spellings hs) (foldsSingly_of_mem_spellings hs) ht
    hf hb h

/-- What is read as a platform, if it leaves the cursor in the text, is written behind blanks. -/
theorem exists_written_of_parser_reads (hc : c.Plain) (h : parser.Reads c p d) (hd : d.InText) :
    ∃ w t, IsBlankRun w ∧ p.Written t ∧ c.Passes (w ++ t) d := by
  obtain ⟨s, hs, hl⟩ := (parser_reads_iff hc).mp h
  obtain ⟨w, t, hw, hf, hp⟩ := hc.exists_passes_of_literal? hl hd
  exact ⟨w, t, hw, ⟨s, hs, hf⟩, hp⟩

end Platform

namespace PlatformRestriction

variable {p : Platform} {c d : Cursor} {b : Bool} {found s : PlatformSet}

/-- Reading an item of a list reads a platform and the bracket or the comma behind it. -/
theorem item_reads_iff : item.Reads c (p, b) d ↔ ∃ e, Platform.parser.Reads c p e ∧
    (b = false ∧ e.literal? [']'] = some d ∨
      b = true ∧ e.literal? [']'] = none ∧ e.literal? [','] = some d) := by
  simp only [item, Parser.reads_bind, Parser.reads_ite, Parser.reads_literal, Parser.reads_pure,
    Parser.not_reads_reject, Prod.mk.injEq]
  constructor
  · rintro ⟨q, e, hq, m, e₁, hm, h⟩
    rcases hm with ⟨rfl, hm⟩ | ⟨rfl, hm, rfl⟩
    · rw [if_pos rfl] at h
      obtain ⟨⟨rfl, rfl⟩, rfl⟩ := h
      exact ⟨e, hq, Or.inl ⟨rfl, hm⟩⟩
    · rw [if_neg Bool.false_ne_true] at h
      obtain ⟨n, e₂, hn, h⟩ := h
      rcases hn with ⟨rfl, hn⟩ | ⟨rfl, -, -⟩
      · rw [if_pos rfl] at h
        obtain ⟨⟨rfl, rfl⟩, rfl⟩ := h
        exact ⟨_, hq, Or.inr ⟨rfl, hm, hn⟩⟩
      · rw [if_neg Bool.false_ne_true] at h
        exact h.elim
  · rintro ⟨e, hp, ⟨rfl, hb⟩ | ⟨rfl, hb, hc⟩⟩
    · exact ⟨p, e, hp, true, d, Or.inl ⟨rfl, hb⟩, by simp⟩
    · refine ⟨p, e, hp, false, e, Or.inr ⟨rfl, hb, rfl⟩, ?_⟩
      rw [if_neg Bool.false_ne_true]
      exact ⟨true, d, Or.inl ⟨rfl, hc⟩, by simp⟩

/-- Reading a list reads its first item and, if another one follows, the list behind it. -/
theorem items_reads_iff : Parser.Reads ⟨items found⟩ c s d ↔
    ∃ p, item.Reads c (p, false) d ∧ s = found.insert p ∨
      ∃ e, item.Reads c (p, true) e ∧ Parser.Reads ⟨items (found.insert p)⟩ e s d := by
  rw [items_eq, Parser.reads_bind]
  constructor
  · rintro ⟨⟨p, m⟩, e, hi, h⟩
    cases m with
    | false =>
      obtain ⟨rfl, rfl⟩ := Parser.reads_pure.mp h
      exact ⟨p, Or.inl ⟨hi, rfl⟩⟩
    | true => exact ⟨p, Or.inr ⟨e, hi, h⟩⟩
  · rintro ⟨p, ⟨hi, rfl⟩ | ⟨e, hi, h⟩⟩
    · exact ⟨(p, false), d, hi, Parser.reads_pure.mpr ⟨rfl, rfl⟩⟩
    · exact ⟨(p, true), e, hi, h⟩

theorem mem_foldl_insert {l : List Platform} :
    p ∈ l.foldl PlatformSet.insert found ↔ p ∈ l ∨ p ∈ found := by
  induction l generalizing found with
  | nil => simp
  | cons q l ih =>
    rw [List.foldl_cons, ih, PlatformSet.mem_insert, List.mem_cons]
    constructor
    · rintro (h | h | h) <;> simp [h]
    · rintro ((h | h) | h) <;> simp [h]

/-- Platforms that are added to no platform are the set of themselves. -/
theorem foldl_insert_empty (l : List Platform) : l.foldl PlatformSet.insert ∅ = .ofList l :=
  PlatformSet.ext_mem fun p => by
    rw [mem_foldl_insert, PlatformSet.mem_ofList]
    simp

/-- A list that is written in characters that fold singly is read. -/
theorem items_reads_of_written {l : List Platform} {t v w : List Char} (h : ItemsWritten l t)
    (ht : ∀ x ∈ t, FoldsSingly x) (hc : c.Plain) (hv : IsBlankRun v) (hw : IsBlankRun w)
    (hp : c.Passes (v ++ t ++ w ++ [']']) d) :
    Parser.Reads ⟨items found⟩ c (l.foldl PlatformSet.insert found) d := by
  induction h generalizing c found v with
  | @last p t hpt =>
    rw [List.append_assoc] at hp
    obtain ⟨e, he, hd⟩ := hp.split
    have hread := Platform.parser_reads_of_written hc hv hpt ht he
    have hend := (hc.of_passes he).literal?_mark (by decide) (by decide) hw hd
    exact items_reads_iff.mpr
      ⟨p, Or.inl ⟨item_reads_iff.mpr ⟨e, hread, Or.inl ⟨rfl, hend⟩⟩, rfl⟩⟩
  | @more p l t u v' t' hpt hu hv' hl ih =>
    have hsplit : v ++ (t ++ u ++ ',' :: v' ++ t') ++ w ++ [']'] =
        v ++ t ++ (u ++ [','] ++ (v' ++ t' ++ w ++ [']'])) := by simp
    rw [hsplit] at hp
    obtain ⟨e, he, hp⟩ := hp.split
    obtain ⟨e', he', hd⟩ := hp.split
    have hread := Platform.parser_reads_of_written hc hv hpt
      (fun x hx => ht x (by simp [hx])) he
    have hce := hc.of_passes he
    have hcomma := hce.literal?_mark (by decide) (by decide) hu he'
    have hbracket := literal?_eq_none_of_other (x := ']') (by decide) (by decide) (by decide) hcomma
    have hrest : Parser.Reads ⟨items (found.insert p)⟩ e' _ d :=
      ih (fun x hx => ht x (by simp [hx])) (hce.of_passes he') hv' hd
    exact items_reads_iff.mpr ⟨p, Or.inr
      ⟨e', item_reads_iff.mpr ⟨e, hread, Or.inr ⟨rfl, hbracket, hcomma⟩⟩, hrest⟩⟩

/-- What is read as an item is written as a platform and the mark behind it. -/
theorem exists_written_of_item_reads (hc : c.Plain) (h : item.Reads c (p, b) d) :
    ∃ v t w, IsBlankRun v ∧ p.Written t ∧ IsBlankRun w ∧
      c.Passes (v ++ t ++ (w ++ [if b then ',' else ']'])) d := by
  obtain ⟨e, hp, hm⟩ := item_reads_iff.mp h
  have hmark : e.literal? [if b then ',' else ']'] = some d := by
    rcases hm with ⟨rfl, hm⟩ | ⟨rfl, -, hm⟩
    · exact hm
    · exact hm
  obtain ⟨v, t, hv, ht, he⟩ :=
    Platform.exists_written_of_parser_reads hc hp (inText_of_literal? hmark)
  obtain ⟨w, hw, hd⟩ :=
    (hc.of_passes he).exists_passes_of_mark (by cases b <;> decide) hmark
  exact ⟨v, t, w, hv, ht, hw, he.append hd⟩

/-- What is read as a list is written as one, up to the bracket that closes it. -/
theorem exists_itemsWritten_of_reads (hc : c.Plain) (h : Parser.Reads ⟨items found⟩ c s d) :
    ∃ l v t w, ItemsWritten l t ∧ IsBlankRun v ∧ IsBlankRun w ∧
      c.Passes (v ++ t ++ w ++ [']']) d ∧ s = l.foldl PlatformSet.insert found := by
  induction found, c using items_induction with
  | step found c ih =>
    obtain ⟨p, ⟨hi, rfl⟩ | ⟨e, hi, hrest⟩⟩ := items_reads_iff.mp h
    · obtain ⟨v, t, w, hv, ht, hw, hd⟩ := exists_written_of_item_reads hc hi
      refine ⟨[p], v, t, w, .last ht, hv, hw, ?_, rfl⟩
      rw [List.append_assoc]
      exact hd
    · obtain ⟨v, t, u, hv, ht, hu, he⟩ := exists_written_of_item_reads hc hi
      rw [← hi.2] at he hrest
      obtain ⟨l, v', t', w, hl, hv', hw, hd, hs⟩ := ih p hi.1 (hc.of_passes he) hrest
      refine ⟨p :: l, v, _, w, .more ht hu hv' hl, hv, hw, ?_, hs⟩
      have hp := he.append hd
      simpa using hp

theorem isMark_at : IsMark '@' := by decide

theorem foldsSingly_keyword : ∀ x ∈ keyword, FoldsSingly x :=
  forall_mem_of_all (by decide)

theorem fold_keyword : fold keyword = keyword := by decide

variable {r : PlatformRestriction}

/-- A restriction is read as the keyword, the bracket and the list, or as nothing where the keyword
does not lie ahead. -/
theorem parser_reads_iff : parser.Reads c r d ↔
    (c.literal? keyword = none ∧ r = unrestricted ∧ d = c) ∨
      ∃ e e' s, c.literal? keyword = some e ∧ e.literal? ['['] = some e' ∧
        Parser.Reads ⟨items ∅⟩ e' s d ∧ r = among s := by
  simp only [parser, Parser.reads_noting, Parser.reads_bind, Parser.reads_ite, Parser.reads_literal,
    Parser.reads_pure, Parser.not_reads_reject]
  constructor
  · rintro ⟨m, e, ⟨rfl, hk⟩ | ⟨rfl, hk, rfl⟩, h⟩
    · rw [if_pos rfl] at h
      obtain ⟨n, e', ⟨rfl, hb⟩ | ⟨rfl, -, -⟩, h⟩ := h
      · rw [if_pos rfl] at h
        obtain ⟨s, d', hs, rfl, rfl⟩ := h
        exact Or.inr ⟨e, e', s, hk, hb, hs, rfl⟩
      · rw [if_neg Bool.false_ne_true] at h
        exact absurd h (by simp)
    · rw [if_neg Bool.false_ne_true] at h
      exact Or.inl ⟨hk, h⟩
  · rintro (⟨hk, rfl, rfl⟩ | ⟨e, e', s, hk, hb, hs, rfl⟩)
    · exact ⟨false, d, Or.inr ⟨rfl, hk, rfl⟩, by simp⟩
    · refine ⟨true, e, Or.inl ⟨rfl, hk⟩, ?_⟩
      rw [if_pos rfl]
      refine ⟨true, e', Or.inl ⟨rfl, hb⟩, ?_⟩
      rw [if_pos rfl]
      exact ⟨s, d, hs, rfl, rfl⟩

/-- Where nothing is restricted, the cursor has stayed. -/
theorem eq_of_parser_reads_unrestricted (h : parser.Reads c unrestricted d) : d = c := by
  rcases parser_reads_iff.mp h with ⟨-, -, hd⟩ | ⟨e, e', s, -, -, -, hs⟩
  · exact hd
  · exact absurd hs nofun

/-- Where the keyword cannot start, nothing is restricted. -/
theorem parser_reads_unrestricted (h : c.ahead.head? ≠ some '@') :
    parser.Reads c unrestricted c :=
  parser_reads_iff.mpr (Or.inl ⟨literal?_eq_none_of_head? isMark_at h, rfl, rfl⟩)

/-- A restriction that starts with the keyword. -/
theorem exists_cons_of_written {t : List Char} (hr : r ≠ unrestricted) (h : r.Written t) :
    ∃ s, t = '@' :: s := by
  cases h with
  | unrestricted => exact absurd rfl hr
  | among hk =>
    obtain ⟨s, rfl, -⟩ := isMark_at.exists_cons_of_fold_eq hk
    exact ⟨_, rfl⟩

/-- A list of platforms that is written behind blanks, in characters that fold singly, is read. -/
theorem parser_reads_of_written {t w : List Char} (hr : r ≠ unrestricted) (h : r.Written t)
    (ht : ∀ x ∈ t, FoldsSingly x) (hc : c.Plain) (hw : IsBlankRun w) (hp : c.Passes (w ++ t) d) :
    parser.Reads c r d := by
  obtain ⟨s, hs⟩ := exists_cons_of_written hr h
  cases h with
  | unrestricted => exact absurd rfl hr
  | @among l k t' u v w' hk hu hv hl hw' =>
    have hsplit : w ++ (k ++ u ++ '[' :: v ++ t' ++ w' ++ [']']) =
        w ++ k ++ (u ++ ['['] ++ (v ++ t' ++ w' ++ [']'])) := by simp
    rw [hsplit] at hp
    obtain ⟨e, he, hp⟩ := hp.split
    obtain ⟨e', he', hd⟩ := hp.split
    have hkhead : ∀ x ∈ k.head?, x ∉ CharSet.blanks := by
      obtain ⟨k', rfl, -⟩ := isMark_at.exists_cons_of_fold_eq hk
      intro x hx
      obtain rfl := Option.some.inj hx
      decide
    have hkey : c.literal? keyword = some e :=
      hc.literal?_of_fold_eq hw nofun foldsSingly_keyword (fun x hx => ht x (by simp [hx]))
        (hk.trans fold_keyword.symm) hkhead he
    have hce := hc.of_passes he
    have hopen := hce.literal?_mark (by decide) (by decide) hu he'
    have hitems : Parser.Reads ⟨items ∅⟩ e' _ d :=
      items_reads_of_written hl (fun x hx => ht x (by simp [hx])) (hce.of_passes he') hv hw' hd
    refine parser_reads_iff.mpr (Or.inr ⟨e, e', _, hkey, hopen, hitems, ?_⟩)
    rw [foldl_insert_empty]

/-- Between blanks a restriction starts with the keyword, if it is written at all. -/
theorem eq_at_of_head?_ahead {t v w : List Char} (h : r.Written t) (hc : c.Plain)
    (hv : IsBlankRun v) (hw : IsBlankRun w) (hrem : c.remaining = v ++ t ++ w) :
    ∀ x ∈ c.ahead.head?, x = '@' := by
  by_cases hr : r = unrestricted
  · subst hr
    cases h
    rw [List.append_nil] at hrem
    rw [hc.ahead_eq_nil (hrem ▸ hv.append hw)]
    exact nofun
  · obtain ⟨s, rfl⟩ := exists_cons_of_written hr h
    rw [List.append_assoc, List.cons_append] at hrem
    have hat : ∀ x ∈ ('@' :: (s ++ w)).head?, x = '@' := fun x hx => (Option.some.inj hx).symm
    have hblank : ∀ x ∈ ('@' :: (s ++ w)).head?, x ∉ CharSet.blanks := by
      intro x hx
      rw [hat x hx]
      decide
    rw [(hc.skipped_eq hv hblank hrem).2]
    exact hat

/-- A restriction that is written between blanks, in characters that fold singly, is read, and
leaves nothing but blanks. -/
theorem exists_parser_reads {t v w : List Char} (h : r.Written t) (ht : ∀ x ∈ t, FoldsSingly x)
    (hc : c.Plain) (hin : c.InText) (hv : IsBlankRun v) (hw : IsBlankRun w)
    (hrem : c.remaining = v ++ t ++ w) :
    ∃ d, parser.Reads c r d ∧ d.Plain ∧ d.InText ∧ IsBlankRun d.remaining := by
  by_cases hr : r = unrestricted
  · subst hr
    cases h
    rw [List.append_nil] at hrem
    have hblank : IsBlankRun c.remaining := hrem ▸ hv.append hw
    have hread : parser.Reads c unrestricted c := by
      apply parser_reads_unrestricted
      rw [hc.ahead_eq_nil hblank]
      exact nofun
    exact ⟨c, hread, hc, hin, hblank⟩
  · obtain ⟨d, hd, hdrem⟩ := exists_passes hrem
    exact ⟨d, parser_reads_of_written hr h ht hc hv hd, hc.of_passes hd, hd.inText hin,
      hdrem ▸ hw⟩

/-- What is read as a restriction is written as one. -/
theorem exists_written_of_parser_reads (hc : c.Plain) (h : parser.Reads c r d) :
    ∃ w t, IsBlankRun w ∧ r.Written t ∧ c.Passes (w ++ t) d := by
  rcases parser_reads_iff.mp h with ⟨-, rfl, rfl⟩ | ⟨e, e', s, hk, hb, hs, rfl⟩
  · exact ⟨[], [], nofun, .unrestricted, .refl _⟩
  · obtain ⟨w, k, hw, hfold, he⟩ := hc.exists_passes_of_literal? hk (inText_of_literal? hb)
    have hce := hc.of_passes he
    obtain ⟨u, hu, he'⟩ := hce.exists_passes_of_mark (by decide) hb
    obtain ⟨l, v, t, w', hl, hv, hw', hd, rfl⟩ :=
      exists_itemsWritten_of_reads (hce.of_passes he') hs
    rw [foldl_insert_empty]
    refine ⟨w, _, hw, .among (hfold.trans fold_keyword) hu hv hl hw', ?_⟩
    have hp := (he.append he').append hd
    simpa using hp

end PlatformRestriction

end DependencyClause
