import DependencyClause.Proofs.Cursor.Search
import DependencyClause.Proofs.Parser.Reads

/-!
# What a quotation holds

Where what is behind the cursor folds singly, a quotation reads exactly the quotable texts that lie
ahead in front of a mark. What follows the mark is not looked at, whatever it folds to.
-/

namespace DependencyClause

open Text Cursor

variable {c d : Cursor} {l s : List Char}

/-- What a search answers tells what it takes. -/
theorem Cursor.getD_ite_nil : (if s = [] then none else some s).getD [] = s := by
  split
  · next hnil => rw [hnil, Option.getD_none]
  · rfl

/-- Where a search takes nothing the cursor stays. -/
theorem Cursor.Searches.eq_of_nil (h : c.Searches l [] d) : d = c := h.passes.moved

/-- What the search answers as a parser. -/
theorem Cursor.Searches.run_scan (h : c.Searches l s d) : (Parser.scan (·.upTo? l)).run c =
    { outcome := .value (if s = [] then none else some s), cursor := d } := by
  have hscan := h.upTo?_eq
  by_cases hnil : s = []
  · subst hnil
    rw [if_pos rfl] at hscan ⊢
    simp only [h.eq_of_nil, Parser.scan, hscan]
  · rw [if_neg hnil] at hscan ⊢
    simp only [Parser.scan, hscan]

theorem Cursor.Searches.reads_scan (h : c.Searches l s d) :
    (Parser.scan (·.upTo? l)).Reads c (if s = [] then none else some s) d := by
  rw [Parser.Reads, h.run_scan]
  exact ⟨rfl, rfl⟩

namespace Parser

/-- The search for the end of a quotation stops behind a quotable text that lies ahead of a mark. -/
private theorem stop_quote {r : List Char} (hc : c.start ≤ c.text.length)
    (hb : ∀ x ∈ c.text.take c.start, FoldsSingly x) (hcase : c.caseSensitive = false)
    (ha : c.ahead = s ++ '"' :: r) :
    c.stop ['"'] = c.start + s.length ↔ Quotable s := by
  have hcased : ∀ t, c.cased t = fold t := fun t => by rw [cased, hcase]; rfl
  have hlen : c.text.length = c.start + (s.length + (r.length + 1)) := by
    have hl := congrArg List.length ha
    rw [ahead, List.length_drop, List.length_append, List.length_cons] at hl
    omega
  have hq : fold ['"'] = ['"'] := fold_of_marks forall_isMark_quote
  rw [quotable_iff_occurrence r, stop_eq hc hb, hcased, hcased, hq, ha]
  cases occurrence? ['"'] (fold (s ++ '"' :: r)) with
  | none =>
    simp only [Option.map_none, Option.getD_none, reduceCtorEq, iff_false]
    omega
  | some n =>
    simp only [Option.map_some, Option.getD_some, Option.some.injEq]
    omega

private theorem literal?_quote {e e' : Cursor} (he : e.skip = ∅) :
    e.literal? ['"'] = some e' ↔ e.Passes ['"'] e' := by
  rw [literal?_marks_eq_some_iff forall_isMark_quote (List.cons_ne_nil _ _),
    skipped_of_skip_empty he, List.nil_append]

section Within

variable {e : Cursor} (hskip : c.skip = ∅) (hin : c.InText) (hb : c.Aligned)
  (hcase : c.caseSensitive = false)

include hskip hin hb hcase

/-- What is taken up to a mark is quotable, and lies in front of the mark. -/
private theorem quotable_of_upTo? (ha : c.upTo? ['"'] = some (s, e))
    (hm : e.literal? ['"'] = some d) : Quotable s ∧ c.Passes (s ++ ['"']) d := by
  have hstart := start_of_skip_empty hskip
  have hc : c.start ≤ c.text.length := hstart ▸ hin
  have he := moved_of_upTo? ha
  have hend := (literal?_quote (by rw [he, hskip])).mp hm
  -- The mark is found in the text, so the search has stopped in it.
  have hstop : c.stop ['"'] ≤ c.text.length := by
    have hl := congrArg List.length hend.remaining_eq
    rw [remaining, List.length_drop, List.length_append, List.length_singleton, he] at hl
    change c.text.length - c.stop ['"'] = _ at hl
    omega
  have hp := passes_of_upTo? ha (start_le_stop hc) hstop
  have hahead : c.ahead = s ++ '"' :: d.remaining := by
    rw [hp.ahead_eq, hend.remaining_eq]
    rfl
  have hlen : c.stop ['"'] = c.start + s.length := by
    have hloc := hp.location_eq
    rw [he, List.length_append, ← Nat.add_assoc, ← start_eq] at hloc
    exact hloc
  rw [skipped_of_skip_empty hskip, List.nil_append] at hp
  exact ⟨(stop_quote hc (hstart ▸ hb) hcase hahead).mp hlen, hp.append hend⟩

/-- A quotable text in front of a mark is what the search takes. -/
private theorem searches_of_quotable (hq : Quotable s) (hs : c.Passes s e)
    (hend : e.Passes ['"'] d) : c.Searches ['"'] s e := by
  have hstart := start_of_skip_empty hskip
  have hahead : c.ahead = s ++ '"' :: d.remaining := by
    rw [ahead_of_skip_empty hskip, hs.remaining_eq, hend.remaining_eq]
    rfl
  have hstop := (stop_quote (hstart ▸ hin) (hstart ▸ hb) hcase hahead).mpr hq
  exact searches_of_stop hskip hs (hstart ▸ hstop)

end Within

/-- A quotation is a quotable text and the mark behind it. -/
theorem quotation_reads_iff (hin : c.InText) (hb : c.Aligned) (hcase : c.caseSensitive = false) :
    quotation.Reads c s d ↔ Quotable s ∧ c.Passes (s ++ ['"']) d := by
  -- The cursor within the quotation, where nothing is skipped.
  let b : Cursor := { c with skip := ∅ }
  rw [quotation, reads_skipping]
  simp only [reads_bind, reads_scan, reads_ite, reads_literal, reads_pure, not_reads_reject]
  constructor
  · rintro ⟨e, ⟨o, e₁, ho, m, e₂, ⟨rfl, hm⟩ | ⟨rfl, -, -⟩, hv⟩, rfl⟩
    · rw [if_pos rfl] at hv
      obtain ⟨rfl, rfl⟩ := hv
      rcases ho with ⟨a, rfl, ha⟩ | ⟨rfl, -, rfl⟩
      · obtain ⟨hq, hp⟩ := quotable_of_upTo? (c := b) rfl hin hb hcase ha hm
        exact ⟨hq, hp.setSkip c.skip⟩
      · have hend := (literal?_quote rfl).mp hm
        exact ⟨by decide, hend.setSkip c.skip⟩
    · exact absurd hv (by simp)
  · rintro ⟨hq, hp⟩
    obtain ⟨e, hs, hend⟩ := (hp.setSkip ∅).split
    have hscan := (searches_of_quotable (c := b) rfl hin hb hcase hq hs hend).reads_scan
    have hmark := (literal?_quote hs.skip_eq).mpr hend
    refine ⟨{ d with skip := ∅ }, ?_, by rw [hp.moved]⟩
    refine ⟨_, e, reads_scan.mp hscan, true, _, Or.inl ⟨rfl, hmark⟩, ?_⟩
    exact ⟨getD_ite_nil.symm, rfl⟩

end Parser

end DependencyClause
