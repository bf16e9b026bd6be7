import DependencyClause.Cursor.Basic

/-!
# How scans move a cursor

A scan changes nothing but the location. A literal moves the cursor ahead, and a literal of one
character, when it matches, leaves the cursor within the text.
-/

namespace DependencyClause.Cursor

open Text

theorem location_le_start (c : Cursor) : c.location ≤ c.start := Nat.le_add_right _ _

theorem literal?_eq_some_iff {c d : Cursor} {l : List Char} :
    c.literal? l = some d ↔ (l ≠ [] ∧ c.cased (c.ahead.take l.length) = c.cased l) ∧
      d = { c with location := c.start + l.length } := by
  by_cases h : l ≠ [] ∧ c.cased (c.ahead.take l.length) = c.cased l
  · rw [literal?, if_pos h]
    exact ⟨fun he => ⟨h, (Option.some.inj he).symm⟩, fun he => congrArg some he.2.symm⟩
  · rw [literal?, if_neg h]
    exact ⟨nofun, fun he => absurd he.1 h⟩

/-- A literal that matches changes the location only. -/
theorem literal?_eq {c d : Cursor} {l : List Char} (h : c.literal? l = some d) :
    d = { c with location := c.start + l.length } := (literal?_eq_some_iff.1 h).2

theorem text_of_literal? {c d : Cursor} {l : List Char} (h : c.literal? l = some d) :
    d.text = c.text := by rw [literal?_eq h]

theorem skip_of_literal? {c d : Cursor} {l : List Char} (h : c.literal? l = some d) :
    d.skip = c.skip := by rw [literal?_eq h]

/-- A literal that matches moves the cursor ahead. -/
theorem location_lt_of_literal? {c d : Cursor} {l : List Char} (h : c.literal? l = some d) :
    c.location < d.location := by
  have hl := List.length_pos_iff.2 (literal?_eq_some_iff.1 h).1.1
  have hs := c.location_le_start
  rw [literal?_eq h]
  exact Nat.lt_of_le_of_lt hs (Nat.lt_add_of_pos_right hl)

@[simp] theorem cased_eq_nil_iff {c : Cursor} {t : List Char} : c.cased t = [] ↔ t = [] := by
  unfold cased
  split <;> simp

theorem cased_append (c : Cursor) (s t : List Char) :
    c.cased (s ++ t) = c.cased s ++ c.cased t := by
  simp only [cased]
  split
  · rfl
  · exact fold_append s t

/-- However texts are compared, one that folds singly keeps its length. -/
theorem length_cased (c : Cursor) {t : List Char} (h : ∀ x ∈ t, FoldsSingly x) :
    (c.cased t).length = t.length := by
  rw [cased]
  split
  · rfl
  · exact length_fold h

/-- A literal matches only if something lies ahead. -/
theorem start_lt_of_literal? {c d : Cursor} {l : List Char} (h : c.literal? l = some d) :
    c.start < c.text.length := by
  obtain ⟨⟨hl, hc⟩, -⟩ := literal?_eq_some_iff.1 h
  rcases Nat.lt_or_ge c.start c.text.length with hs | hs
  · exact hs
  · rw [ahead, List.drop_eq_nil_of_le hs, List.take_nil] at hc
    exact absurd (cased_eq_nil_iff.1 (hc.symm.trans (cased_eq_nil_iff.2 rfl))) hl

/-- A literal of one character leaves the cursor within the text. -/
theorem location_le_of_literal? {c d : Cursor} {x : Char} (h : c.literal? [x] = some d) :
    d.location ≤ d.text.length := by
  have hs := start_lt_of_literal? h
  rw [literal?_eq h]
  exact hs

/-- What a choice finds is one of the spellings, and lies ahead. -/
theorem exists_literal?_of_choose? {α : Type} {c d : Cursor} {l : List (List Char × α)} {a : α}
    (h : c.choose? l = some (a, d)) : ∃ s, (s, a) ∈ l ∧ c.literal? s = some d := by
  obtain ⟨⟨s, b⟩, hs, hm⟩ := List.exists_of_findSome?_eq_some h
  obtain ⟨e, he, hp⟩ := Option.map_eq_some_iff.1 hm
  cases hp
  exact ⟨s, hs, he⟩

end DependencyClause.Cursor
