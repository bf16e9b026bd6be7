import DependencyClause.Proofs.Parser.Quotation
import DependencyClause.Session
import DependencyClause.Version.Reading

/-!
# Searching for a literal and passing over it

A search for a literal and the literal itself are two scans that look for their text in different
ways. In a text that folds singly they agree: the literal matches behind a search exactly if it
occurs ahead, and then nothing shorter would have led to it. A quotation is such a pair of scans, so
it is what lies in front of the next mark, and it is unterminated exactly if there is no mark.
-/

namespace DependencyClause

open Text Cursor

variable {c d : Cursor} {l s : List Char}

namespace Parser

/-- Where a mark lies behind the text that the search takes, that text is quoted. -/
private theorem run_quotation_of_some {e : Cursor}
    (h : ({ c with skip := ∅ } : Cursor).Searches ['"'] s d) (he : d.literal? ['"'] = some e) :
    quotation.run c = { outcome := .value s, cursor := { e with skip := c.skip } } := by
  simp only [quotation, skipping, run_bind, h.run_scan, Parsed.andThen_value,
    run_literal_of_some he, if_true, run_pure, getD_ite_nil, List.nil_append]

/-- Where none does, the quotation is rejected behind that text. -/
private theorem run_quotation_of_none (h : ({ c with skip := ∅ } : Cursor).Searches ['"'] s d)
    (he : d.literal? ['"'] = none) :
    quotation.run c =
      { outcome := .rejected { cause := .quoteUnterminated, line := some d.currentLine }
        cursor := { d with skip := c.skip } } := by
  simp only [quotation, skipping, run_bind, h.run_scan, Parsed.andThen_value,
    run_literal_of_none he, Bool.false_eq_true, if_false, run_reject, List.nil_append]

theorem occurs_mark_iff : c.Occurs ['"'] s ↔ ∃ r, c.remaining = s ++ '"' :: r := by
  rw [occurs_marks_iff forall_isMark_quote]
  simp

/-- What lies in front of the first mark occurs in front of no earlier one. -/
theorem occursFirst_mark {r : List Char} (hr : c.remaining = s ++ '"' :: r) (hs : '"' ∉ s) :
    c.OccursFirst ['"'] s := by
  refine ⟨occurs_mark_iff.mpr ⟨r, hr⟩, fun u hu => ?_⟩
  obtain ⟨r', hr'⟩ := occurs_mark_iff.mp hu
  rcases Nat.lt_or_ge u.length s.length with hlt | hge
  · -- The mark behind the shorter text would stand within the longer one.
    have hmark : u ++ ['"'] <+: c.remaining :=
      ⟨r', by rw [hr', List.append_assoc, List.singleton_append]⟩
    have hbegin : u ++ ['"'] <+: s := by
      refine List.prefix_of_prefix_length_le hmark ⟨'"' :: r, hr.symm⟩ ?_
      rw [List.length_append, List.length_singleton]
      exact hlt
    exact absurd (hbegin.subset (List.mem_append_right u List.mem_cons_self)) hs
  · exact hge

/-- In a text that folds singly a quotation is what lies in front of the first mark ahead. -/
theorem run_quotation_of_mark (hc : c.Faithful) {r : List Char}
    (hr : c.remaining = s ++ '"' :: r) (hs : '"' ∉ s) :
    quotation.run c =
      { outcome := .value s, cursor := { c with location := c.location + (s.length + 1) } } := by
  have hb : ({ c with skip := ∅ } : Cursor).Faithful := ⟨hc.foldsSingly, hc.inText⟩
  obtain ⟨d, e, v, hsearch, hv, he, hmark⟩ := hb.exists_searches_of_occursFirst rfl
    (List.cons_ne_nil _ _) (fun x hx => (forall_isMark_quote x hx).foldsSingly)
    (occursFirst_mark (c := { c with skip := ∅ }) hr hs)
  obtain rfl := eq_of_cased_eq_marks forall_isMark_quote hv
  rw [run_quotation_of_some hsearch hmark, he.moved, hsearch.passes.moved]
  rfl

/-- Where no mark lies ahead a quotation is rejected at the end of the text. -/
theorem run_quotation_of_no_mark (hc : c.Faithful) (h : '"' ∉ c.remaining) :
    ∃ f, (quotation.run c).outcome = .rejected f ∧ f.cause = .quoteUnterminated ∧
      (quotation.run c).cursor.location = c.text.length := by
  have hb : ({ c with skip := ∅ } : Cursor).Faithful := ⟨hc.foldsSingly, hc.inText⟩
  have hnone : ∀ s, ¬ ({ c with skip := ∅ } : Cursor).Occurs ['"'] s := by
    intro s hs
    obtain ⟨r, hr⟩ := occurs_mark_iff.mp hs
    refine h ?_
    change c.remaining = _ at hr
    rw [hr]
    exact List.mem_append_right _ List.mem_cons_self
  obtain ⟨d, hsearch, hloc, hmark⟩ := hb.exists_searches_of_not_occurs rfl hnone
  rw [run_quotation_of_none hsearch hmark]
  exact ⟨_, rfl, rfl, hloc⟩

end Parser

namespace Step

/-- What a search answers as a step. -/
theorem take_upTo [VersionLibrary] (h : c.Searches l s d) : (upTo l).take c =
    { reply := .taken (if s = [] then none else some s), cursor := d } := by
  have hscan := h.upTo?_eq
  by_cases hnil : s = []
  · subst hnil
    rw [if_pos rfl] at hscan ⊢
    rw [h.eq_of_nil, take, hscan, StepResult.ofScan]
  · rw [if_neg hnil] at hscan ⊢
    rw [take, hscan, StepResult.ofScan]

/-- What a search and the literal answer one after the other, where the literal matches. -/
theorem observations_of_some [VersionLibrary] {e : Cursor} (h : c.Searches l s d)
    (he : d.literal? l = some e) :
    (takeAll [upTo l, literal l] c).observations =
      [(.taken (if s = [] then none else some s), d), (.matched true, e)] := by
  have hlit : (literal l).take d = { reply := .matched true, cursor := e } := by
    rw [take, he, StepResult.ofLiteral]
  simp only [takeAll, take_upTo h, hlit]

/-- What they answer where it does not. -/
theorem observations_of_none [VersionLibrary] (h : c.Searches l s d) (he : d.literal? l = none) :
    (takeAll [upTo l, literal l] c).observations =
      [(.taken (if s = [] then none else some s), d), (.matched false, d)] := by
  have hlit : (literal l).take d = { reply := .matched false, cursor := d } := by
    rw [take, he, StepResult.ofLiteral]
  simp only [takeAll, take_upTo h, hlit]

/-- In a text that folds singly, with nothing to skip, a literal that folds singly matches behind a
search for it exactly if it occurs ahead; then the search has taken the shortest text in front of
an occurrence, and else all that remains. So a quotation is unterminated exactly if no mark lies
ahead, and else it is what lies in front of the first mark, which is passed over. -/
theorem search_stops_at_literal [VersionLibrary] (hc : c.Faithful) :
    (∀ l, l ≠ [] → (∀ x ∈ l, FoldsSingly x) → c.skip = ∅ →
      ∃ s d b e, c.Passes s d ∧
        (takeAll [upTo l, literal l] c).observations =
          [(.taken (if s = [] then none else some s), d), (.matched b, e)] ∧
        (b = true ↔ ∃ u, c.Occurs l u) ∧
        (b = true → c.OccursFirst l s ∧ ∃ v, c.cased v = c.cased l ∧ d.Passes v e) ∧
        (b = false → d.location = c.text.length ∧ e = d)) ∧
    ((∃ f, (Parser.quotation.run c).outcome = .rejected f ∧
      f.message = "unterminated quoted string".toList) ↔ '"' ∉ c.remaining) ∧
    ∀ s r, c.remaining = s ++ '"' :: r → '"' ∉ s → Parser.quotation.run c =
      { outcome := .value s, cursor := { c with location := c.location + (s.length + 1) } } := by
  refine ⟨fun l hl hls hskip => ?_, ⟨?_, fun h => ?_⟩, fun s r hr hs => ?_⟩
  · by_cases h : ∃ u, c.Occurs l u
    · obtain ⟨s, hs⟩ := hc.exists_occursFirst h.choose_spec
      obtain ⟨d, e, v, hsearch, hv, he, hmark⟩ :=
        hc.exists_searches_of_occursFirst hskip hl hls hs
      exact ⟨s, d, true, e, hsearch.passes, observations_of_some hsearch hmark,
        iff_of_true rfl h, fun _ => ⟨hs, v, hv, he⟩, nofun⟩
    · obtain ⟨d, hsearch, hloc, hmark⟩ :=
        hc.exists_searches_of_not_occurs hskip (not_exists.mp h)
      exact ⟨_, d, false, d, hsearch.passes, observations_of_none hsearch hmark,
        iff_of_false Bool.false_ne_true h, nofun, fun _ => ⟨hloc, rfl⟩⟩
  · rintro ⟨f, hf, -⟩ hmem
    obtain ⟨s, r, hr, hs⟩ := List.eq_append_cons_of_mem hmem
    rw [Parser.run_quotation_of_mark hc hr hs] at hf
    exact absurd hf nofun
  · obtain ⟨f, hf, hcause, -⟩ := Parser.run_quotation_of_no_mark hc h
    exact ⟨f, hf, congrArg Cause.message hcause⟩
  · exact Parser.run_quotation_of_mark hc hr hs

/-- An occurrence lies in front of the cursor and another one, in other case, behind a letter that
starts like it; a quotation from there on ends at the mark behind both. -/
theorem search_stops_at_literal_other_case :
    Faithful { text := "äbÄÄb\"".toList, location := 2, skip := ∅ } ∧
    OccursFirst { text := "äbÄÄb\"".toList, location := 2, skip := ∅ } "äb".toList "Ä".toList ∧
    Parser.quotation.run { text := "äbÄÄb\"".toList, location := 2, skip := ∅ } =
      { outcome := .value "ÄÄb".toList
        cursor := { text := "äbÄÄb\"".toList, location := 6, skip := ∅ } } := by
  have hc : Faithful { text := "äbÄÄb\"".toList, location := 2, skip := ∅ } :=
    ⟨forall_mem_of_all (by decide +kernel), by decide⟩
  have htaken : upTo? { text := "äbÄÄb\"".toList, location := 2, skip := ∅ } "äb".toList =
      some ("Ä".toList, { text := "äbÄÄb\"".toList, location := 3, skip := ∅ }) := by
    decide +kernel
  obtain ⟨hsearch, -, hquoted⟩ := search_stops_at_literal hc
  refine ⟨hc, ?_, hquoted "ÄÄb".toList [] (by decide) (by decide)⟩
  obtain ⟨s, d, b, e, -, hobs, hmatched, hfirst, -⟩ :=
    hsearch "äb".toList (by decide) (forall_mem_of_all (by decide +kernel)) rfl
  have hoccurs : Occurs { text := "äbÄÄb\"".toList, location := 2, skip := ∅ } "äb".toList
      "Ä".toList := ⟨"Äb".toList, ['"'], by decide, by decide +kernel⟩
  have hs := (hfirst (hmatched.mpr ⟨_, hoccurs⟩)).1
  rw [takeAll, take, htaken, StepResult.ofScan, List.cons.injEq, Prod.mk.injEq,
    Reply.taken.injEq] at hobs
  have hall := hobs.1.1
  split at hall
  · exact absurd hall nofun
  · exact Option.some.inj hall ▸ hs

end Step

end DependencyClause
