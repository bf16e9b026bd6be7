import DependencyClause.Proofs.Cursor.Scan
import DependencyClause.Proofs.Grammar.Basic
import DependencyClause.Proofs.Parser.Quotation

/-!
# Tokens behind blanks

A fresh cursor skips blanks and does not mind case. On such a cursor every scan passes over a run of
blanks and, behind it, a token of the grammar.
-/

namespace DependencyClause

open Text

theorem IsBlankRun.append {v w : List Char} (hv : IsBlankRun v) (hw : IsBlankRun w) :
    IsBlankRun (v ++ w) := by
  intro x hx
  rcases List.mem_append.mp hx with hx | hx
  · exact hv x hx
  · exact hw x hx

theorem IsBlankRun.foldsSingly {w : List Char} (hw : IsBlankRun w) : ∀ x ∈ w, FoldsSingly x :=
  fun x hx => (isMark_of_mem_blanks (hw x hx)).foldsSingly

namespace Cursor

variable {c d : Cursor} {l s w : List Char}

/-- The cursor skips blanks and does not mind case. -/
structure Plain (c : Cursor) : Prop where
  /-- Blanks are skipped, and nothing else. -/
  skip_eq : c.skip = .blanks
  /-- Case does not count. -/
  case_eq : c.caseSensitive = false

namespace Plain

theorem cased_eq (hc : c.Plain) (t : List Char) : c.cased t = fold t := by
  rw [cased, hc.case_eq]
  rfl

theorem of_passes (hc : c.Plain) (h : c.Passes s d) : d.Plain :=
  ⟨h.skip_eq.trans hc.skip_eq, h.caseSensitive_eq.trans hc.case_eq⟩

theorem isBlankRun_skipped (hc : c.Plain) : IsBlankRun c.skipped :=
  fun _ hx => hc.skip_eq ▸ mem_skip_of_mem_skipped hx

/-- Blanks in front of anything else are what a scan skips. -/
theorem skipped_eq (hc : c.Plain) (hw : IsBlankRun w) (hs : ∀ x ∈ s.head?, x ∉ CharSet.blanks)
    (h : c.remaining = w ++ s) : c.skipped = w ∧ c.ahead = s :=
  Cursor.skipped_eq h (hc.skip_eq ▸ hw) (hc.skip_eq ▸ hs)

/-- Blanks in front of a token are what a scan skips. -/
theorem skipped_of_passes (hc : c.Plain) (hw : IsBlankRun w) (h : c.Passes (w ++ s) d)
    (hne : s ≠ []) (hs : ∀ x ∈ s.head?, x ∉ CharSet.blanks) : c.skipped = w := by
  have hr := h.remaining_eq
  rw [List.append_assoc] at hr
  refine (hc.skipped_eq hw ?_ hr).1
  intro x hx
  obtain ⟨y, t, rfl⟩ := List.exists_cons_of_ne_nil hne
  exact hs x hx

/-- A literal of marks passes over blanks and itself. -/
theorem literal?_marks_iff (hc : c.Plain) (hl : ∀ x ∈ l, IsMark x) (hne : l ≠ [])
    (hb : ∀ x ∈ l.head?, x ∉ CharSet.blanks) :
    c.literal? l = some d ↔ ∃ w, IsBlankRun w ∧ c.Passes (w ++ l) d := by
  rw [literal?_marks_eq_some_iff hl hne]
  constructor
  · exact fun h => ⟨c.skipped, hc.isBlankRun_skipped, h⟩
  · rintro ⟨w, hw, h⟩
    rwa [hc.skipped_of_passes hw h hne hb]

/-- Behind blanks a mark is found as a literal. -/
theorem literal?_mark {x : Char} (hc : c.Plain) (hx : IsMark x) (hb : x ∉ CharSet.blanks)
    (hw : IsBlankRun w) (h : c.Passes (w ++ [x]) d) : c.literal? [x] = some d := by
  refine (hc.literal?_marks_iff (by simpa using hx) (List.cons_ne_nil x []) ?_).mpr ⟨w, hw, h⟩
  simpa using hb

/-- A mark that is found as a literal stands behind blanks. -/
theorem exists_passes_of_mark {x : Char} (hc : c.Plain) (hx : IsMark x)
    (h : c.literal? [x] = some d) : ∃ w, IsBlankRun w ∧ c.Passes (w ++ [x]) d := by
  have hp := (literal?_marks_eq_some_iff (by simpa using hx) (List.cons_ne_nil x [])).mp h
  exact ⟨c.skipped, hc.isBlankRun_skipped, hp⟩

/-- A literal is found behind blanks in any text that folds singly and as it does. -/
theorem literal?_of_fold_eq (hc : c.Plain) (hw : IsBlankRun w) (hne : l ≠ [])
    (hl : ∀ x ∈ l, FoldsSingly x) (hs : ∀ x ∈ s, FoldsSingly x) (hf : fold s = fold l)
    (hb : ∀ x ∈ s.head?, x ∉ CharSet.blanks) (h : c.Passes (w ++ s) d) :
    c.literal? l = some d := by
  have hlen := length_eq_of_fold_eq hf hs hl
  have hsne : s ≠ [] := by
    intro he
    rw [he] at hlen
    exact hne (List.length_eq_zero_iff.mp hlen.symm)
  refine literal?_of_passes hne hlen ?_ ?_
  · rw [hc.cased_eq, hc.cased_eq, hf]
  · rwa [hc.skipped_of_passes hw h hsne hb]

/-- A literal that leaves the cursor in the text has passed over blanks and a text that folds as it
does. -/
theorem exists_passes_of_literal? (hc : c.Plain) (h : c.literal? l = some d) (hd : d.InText) :
    ∃ w s, IsBlankRun w ∧ fold s = fold l ∧ c.Passes (w ++ s) d := by
  obtain ⟨s, -, hs, hp⟩ := Cursor.exists_passes_of_literal? h hd
  exact ⟨c.skipped, s, hc.isBlankRun_skipped, fold_eq_of_cased_eq hs, hp⟩

/-- A quotation stands behind blanks, and a quotable text between its marks. -/
theorem quoted_reads_iff {r : List Char} (hc : c.Plain) (hin : c.InText) (ha : c.Aligned) :
    (∃ e, c.literal? ['"'] = some e ∧ Parser.quotation.Reads e r d) ↔
      Quotable r ∧ ∃ w, IsBlankRun w ∧ c.Passes (w ++ ('"' :: r ++ ['"'])) d := by
  -- Behind the blanks and the mark the cursor is as good as before.
  have hopen : ∀ {w e}, IsBlankRun w → c.Passes (w ++ ['"']) e →
      (Parser.quotation.Reads e r d ↔ Quotable r ∧ e.Passes (r ++ ['"']) d) := by
    intro w e hw he
    refine Parser.quotation_reads_iff (he.inText hin) (he.aligned ha ?_) (hc.of_passes he).case_eq
    intro x hx
    rcases List.mem_append.mp hx with hx | hx
    · exact hw.foldsSingly x hx
    · exact (List.mem_singleton.mp hx) ▸ isMark_quote.foldsSingly
  have hsplit : ∀ w, w ++ ('"' :: r ++ ['"']) = w ++ ['"'] ++ (r ++ ['"']) := by simp
  constructor
  · rintro ⟨e, hq, h⟩
    obtain ⟨w, hw, he⟩ := hc.exists_passes_of_mark isMark_quote hq
    obtain ⟨hr, hd⟩ := (hopen hw he).mp h
    exact ⟨hr, w, hw, hsplit w ▸ he.append hd⟩
  · rintro ⟨hr, w, hw, hp⟩
    rw [hsplit w] at hp
    obtain ⟨e, he, hd⟩ := hp.split
    exact ⟨e, hc.literal?_mark isMark_quote (by decide) hw he, (hopen hw he).mpr ⟨hr, hd⟩⟩

/-- Nothing lies ahead of a scan where nothing but blanks remains. -/
theorem ahead_eq_nil (hc : c.Plain) (h : IsBlankRun c.remaining) : c.ahead = [] :=
  (hc.skipped_eq (s := []) h nofun (List.append_nil _).symm).2

/-- A cursor is at the end of its text where nothing but blanks remains. -/
theorem isAtEnd_iff (hc : c.Plain) (hin : c.InText) :
    c.isAtEnd = true ↔ IsBlankRun c.remaining := by
  have hr := c.skipped_append_ahead
  have hlen := congrArg List.length hr
  rw [List.length_append, remaining, List.length_drop] at hlen
  unfold InText at hin
  rw [isAtEnd, beq_iff_eq, start_eq]
  constructor
  · intro h
    have ha : c.ahead = [] := List.length_eq_zero_iff.mp (by omega)
    rw [ha, List.append_nil] at hr
    exact hr ▸ hc.isBlankRun_skipped
  · intro h
    rw [hc.ahead_eq_nil h, List.length_nil] at hlen
    omega

end Plain

/-- Where one mark lies ahead, no other one does. -/
theorem literal?_eq_none_of_other {x y : Char} (hx : IsMark x) (hy : IsMark y) (hne : y ≠ x)
    (h : c.literal? [y] = some d) : c.literal? [x] = none := by
  have hp := (literal?_marks_eq_some_iff (by simpa using hy) (List.cons_ne_nil y [])).mp h
  refine literal?_eq_none_of_head? hx ?_
  rw [hp.ahead_eq]
  simpa using hne

/-- A literal that matches starts in the text. -/
theorem inText_of_literal? (h : c.literal? l = some d) : c.InText :=
  Nat.le_trans c.location_le_start (Nat.le_of_lt (start_lt_of_literal? h))

theorem plain_fresh (t : List Char) : Plain { text := t } := ⟨rfl, rfl⟩

theorem inText_fresh (t : List Char) : InText { text := t } := Nat.zero_le _

theorem aligned_fresh (t : List Char) : Aligned { text := t } := by
  intro x hx
  exact absurd hx List.not_mem_nil

end Cursor

end DependencyClause
