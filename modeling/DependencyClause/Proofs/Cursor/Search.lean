import DependencyClause.Proofs.Cursor.Onward

/-!
# Where a search stops

A search looks for the folded literal in the folded text and takes the offset for one of the text
itself, while a literal is compared with a piece of the text. In a text that folds singly every
occurrence in the folded text is one in the text. So from a cursor that skips nothing a search takes
the shortest text behind which the literal lies ahead, and all that remains if there is none.
-/

namespace DependencyClause.Cursor

open Text

variable {c d : Cursor} {l s : List Char}

/-- Ahead of the cursor, behind the text `s`, lies one that is compared like the literal. -/
def Occurs (c : Cursor) (l s : List Char) : Prop :=
  ∃ v r, c.remaining = s ++ v ++ r ∧ c.cased v = c.cased l

/-- The shortest text behind which the literal lies ahead of the cursor. -/
structure OccursFirst (c : Cursor) (l s : List Char) : Prop where
  /-- The literal lies behind it. -/
  occurs : c.Occurs l s
  /-- The literal lies behind no shorter one. -/
  length_le : ∀ u, c.Occurs l u → s.length ≤ u.length

/-- A search for the literal takes the text `s`, which is ahead of `c`, and leaves the cursor at
`d`; where there is nothing to take it answers so. -/
structure Searches (c : Cursor) (l s : List Char) (d : Cursor) : Prop where
  /-- The text is passed over. -/
  passes : c.Passes s d
  /-- The text is taken unless it is empty. -/
  upTo?_eq : c.upTo? l = if s = [] then none else some (s, d)

/-- Without characters to skip, what lies in front of the place where a search stops is what it
takes. -/
theorem searches_of_stop (hskip : c.skip = ∅) (h : c.Passes s d)
    (hs : c.stop l = c.location + s.length) : c.Searches l s d := by
  refine ⟨h, ?_⟩
  have hstop : c.stop l = c.start + s.length := by rw [hs, start_of_skip_empty hskip]
  split
  · next hnil => rw [upTo?, if_pos (by rw [hstop, hnil]; rfl)]
  · next hne =>
    refine upTo?_of_passes ?_ hne hstop
    rwa [skipped_of_skip_empty hskip, List.nil_append]

/-- Where the compared text is cut, the text can be cut, if it folds singly. -/
theorem exists_append_of_cased_eq {t a b : List Char} (ht : ∀ x ∈ t, FoldsSingly x)
    (h : c.cased t = a ++ b) : ∃ u v, t = u ++ v ∧ c.cased u = a ∧ c.cased v = b := by
  have hsplit : c.cased (t.take a.length) ++ c.cased (t.drop a.length) = a ++ b := by
    rw [← cased_append, List.take_append_drop, h]
  have hle : a.length ≤ t.length := by
    rw [← c.length_cased ht, h, List.length_append]
    exact Nat.le_add_right _ _
  have hlen : (c.cased (t.take a.length)).length = a.length := by
    rw [c.length_cased fun x hx => ht x (List.mem_of_mem_take hx), List.length_take,
      Nat.min_eq_left hle]
  obtain ⟨hu, hv⟩ := List.append_inj hsplit hlen
  exact ⟨_, _, (List.take_append_drop _ _).symm, hu, hv⟩

namespace Faithful

variable (hc : c.Faithful)

include hc

theorem foldsSingly_remaining : ∀ x ∈ c.remaining, FoldsSingly x :=
  fun x hx => hc.foldsSingly x (List.mem_of_mem_drop hx)

/-- What is found in the compared text occurs in the text. -/
theorem exists_occurs_of_occurrence? {n : Nat}
    (h : occurrence? (c.cased l) (c.cased c.remaining) = some n) :
    ∃ u, c.Occurs l u ∧ u.length = n := by
  obtain ⟨a, b, hab, rfl⟩ := exists_eq_append_of_occurrence? h
  rw [List.append_assoc] at hab
  obtain ⟨u, t, ht, rfl, hrest⟩ := exists_append_of_cased_eq hc.foldsSingly_remaining hab
  have hsingle : ∀ x ∈ u ++ t, FoldsSingly x := ht ▸ hc.foldsSingly_remaining
  obtain ⟨v, r, rfl, hv, -⟩ :=
    exists_append_of_cased_eq (fun x hx => hsingle x (List.mem_append_right u hx)) hrest
  refine ⟨u, ⟨v, r, by rw [ht, List.append_assoc], hv⟩, ?_⟩
  rw [c.length_cased fun x hx => hsingle x (List.mem_append_left _ hx)]

/-- What occurs in the text is found in the compared text, there or at an earlier place. -/
theorem exists_occurrence?_of_occurs (h : c.Occurs l s) :
    ∃ n, occurrence? (c.cased l) (c.cased c.remaining) = some n ∧ n ≤ s.length := by
  obtain ⟨v, r, hr, hv⟩ := h
  have hsingle : ∀ x ∈ s, FoldsSingly x := by
    intro x hx
    refine hc.foldsSingly_remaining x ?_
    rw [hr]
    exact List.mem_append_left _ (List.mem_append_left _ hx)
  obtain ⟨n, hn, hle⟩ := exists_occurrence?_le (c.cased s) (c.cased l) (c.cased r)
  rw [← hv, ← cased_append, ← cased_append, ← hr, hv] at hn
  rw [c.length_cased hsingle] at hle
  exact ⟨n, hn, hle⟩

/-- If a literal occurs at all, it has a first occurrence. -/
theorem exists_occursFirst (h : c.Occurs l s) : ∃ u, c.OccursFirst l u := by
  obtain ⟨n, hn, -⟩ := hc.exists_occurrence?_of_occurs h
  obtain ⟨u, hu, rfl⟩ := hc.exists_occurs_of_occurrence? hn
  refine ⟨u, hu, fun w hw => ?_⟩
  obtain ⟨m, hm, hle⟩ := hc.exists_occurrence?_of_occurs hw
  rw [hn, Option.some.injEq] at hm
  omega

section SkippingNothing

variable (hskip : c.skip = ∅)

include hskip

/-- Without characters to skip, what remains decides where a search stops. -/
theorem stop_eq_of_skip_empty : c.stop l =
    ((occurrence? (c.cased l) (c.cased c.remaining)).map (c.location + ·)).getD c.text.length := by
  have hstart := start_of_skip_empty hskip
  rw [stop_eq (start_le_length hc.inText) fun x hx => hc.foldsSingly x (List.mem_of_mem_take hx),
    hstart, ahead_of_skip_empty hskip]

/-- A search stops in front of the first occurrence. -/
theorem stop_of_occursFirst (h : c.OccursFirst l s) : c.stop l = c.location + s.length := by
  obtain ⟨n, hn, hle⟩ := hc.exists_occurrence?_of_occurs h.occurs
  obtain ⟨u, hu, rfl⟩ := hc.exists_occurs_of_occurrence? hn
  have hmin := h.length_le u hu
  rw [hc.stop_eq_of_skip_empty hskip, hn, Option.map_some, Option.getD_some]
  omega

/-- Where the literal does not occur a search stops at the end of the text. -/
theorem stop_of_not_occurs (h : ∀ s, ¬ c.Occurs l s) : c.stop l = c.text.length := by
  rw [hc.stop_eq_of_skip_empty hskip]
  cases hn : occurrence? (c.cased l) (c.cased c.remaining) with
  | none => rfl
  | some n =>
    obtain ⟨u, hu, -⟩ := hc.exists_occurs_of_occurrence? hn
    exact absurd hu (h u)

/-- Where the literal occurs, a search takes the shortest text in front of it, and the literal
matches behind that text. -/
theorem exists_searches_of_occursFirst (hl : l ≠ []) (hls : ∀ x ∈ l, FoldsSingly x)
    (h : c.OccursFirst l s) : ∃ d e v, c.Searches l s d ∧ c.cased v = c.cased l ∧ d.Passes v e ∧
      d.literal? l = some e := by
  obtain ⟨v, r, hr, hv⟩ := h.occurs
  rw [List.append_assoc] at hr
  obtain ⟨d, hd, hrest⟩ := exists_passes hr
  obtain ⟨e, he, -⟩ := exists_passes hrest
  have hlen : v.length = l.length := by
    have hvs : ∀ x ∈ v, FoldsSingly x := by
      intro x hx
      refine hc.foldsSingly_remaining x ?_
      rw [hr]
      exact List.mem_append_right _ (List.mem_append_left _ hx)
    rw [← c.length_cased hvs, hv, c.length_cased hls]
  have hcased : d.cased v = d.cased l := by
    rw [hd.moved]
    exact hv
  refine ⟨d, e, v, searches_of_stop hskip hd (hc.stop_of_occursFirst hskip h), hv, he,
    literal?_of_passes hl hlen hcased ?_⟩
  rwa [skipped_of_skip_empty (hd.skip_eq.trans hskip), List.nil_append]

/-- Where the literal does not occur, a search takes all that remains, and the literal does not
match behind that. -/
theorem exists_searches_of_not_occurs (h : ∀ s, ¬ c.Occurs l s) :
    ∃ d, c.Searches l c.remaining d ∧ d.location = c.text.length ∧ d.literal? l = none := by
  obtain ⟨d, hd, -⟩ := exists_passes (List.append_nil c.remaining).symm
  have hend : c.location + c.remaining.length = c.text.length := by
    rw [remaining, List.length_drop]
    exact Nat.add_sub_cancel' hc.inText
  have hloc : d.location = c.text.length := hd.location_eq.trans hend
  refine ⟨d, searches_of_stop hskip hd ?_, hloc, ?_⟩
  · rw [hc.stop_of_not_occurs hskip h, hend]
  · cases hm : d.literal? l with
    | none => rfl
    | some e =>
      have hlt := start_lt_of_literal? hm
      have hle := d.location_le_start
      rw [hd.text_eq] at hlt
      omega

end SkippingNothing

end Faithful

/-- A literal of marks occurs where it stands in the text as it is. -/
theorem occurs_marks_iff (hl : ∀ x ∈ l, IsMark x) :
    c.Occurs l s ↔ ∃ r, c.remaining = s ++ l ++ r := by
  constructor
  · rintro ⟨v, r, hr, hv⟩
    obtain rfl := eq_of_cased_eq_marks hl hv
    exact ⟨r, hr⟩
  · rintro ⟨r, hr⟩
    exact ⟨l, r, hr, rfl⟩

end DependencyClause.Cursor
