import DependencyClause.Proofs.Cursor.Scan

/-!
# Scans of texts that fold singly

In a text that folds singly an offset of the folded text is one of the text itself. There every scan
that finds something passes over the characters to skip and what it takes, and the cursor stays
within the text, whatever is sought and whether or not case counts.
-/

namespace DependencyClause.Cursor

open Text

variable {c d e : Cursor} {l s : List Char}

/-- The cursor lies within a text that folds singly. -/
structure Faithful (c : Cursor) : Prop where
  /-- Every character of the text folds to a single one. -/
  foldsSingly : ∀ x ∈ c.text, FoldsSingly x
  /-- The cursor lies in the text, or at the end of it. -/
  inText : c.InText

/-- The cursor `d` lies within the text of `c`, and not before `c`. -/
structure Onward (c d : Cursor) : Prop where
  /-- The text is the same. -/
  text_eq : d.text = c.text
  /-- The location is the same or a later one. -/
  location_le : c.location ≤ d.location
  /-- The location is one of the text. -/
  inText : d.InText

namespace Onward

theorem refl (hc : c.InText) : c.Onward c := ⟨rfl, Nat.le_refl _, hc⟩

theorem trans (h : c.Onward d) (h' : d.Onward e) : c.Onward e where
  text_eq := h'.text_eq.trans h.text_eq
  location_le := Nat.le_trans h.location_le h'.location_le
  inText := h'.inText

theorem faithful (h : c.Onward d) (hc : c.Faithful) : d.Faithful :=
  ⟨h.text_eq ▸ hc.foldsSingly, h.inText⟩

end Onward

/-- What is passed over leads onward. -/
theorem Passes.onward (h : c.Passes s d) (hc : c.InText) : c.Onward d where
  text_eq := h.text_eq
  location_le := by
    rw [h.location_eq]
    omega
  inText := h.inText hc

/-- The characters to skip lie in the text. -/
theorem start_le_length (hc : c.InText) : c.start ≤ c.text.length := by
  have hlen := congrArg List.length c.skipped_append_ahead
  rw [List.length_append, remaining, List.length_drop] at hlen
  unfold InText at hc
  rw [start_eq]
  omega

namespace Faithful

/-- A literal that matches passes over a text of its own length. -/
theorem exists_passes_of_literal? (hc : c.Faithful) (h : c.literal? l = some d) :
    ∃ s, s.length = l.length ∧ c.Passes (c.skipped ++ s) d := by
  obtain ⟨⟨-, hs⟩, hm⟩ := literal?_eq_some_iff.mp h
  have hsingle : ∀ x ∈ c.ahead.take l.length, FoldsSingly x :=
    fun x hx => hc.foldsSingly x (List.mem_of_mem_drop (List.mem_of_mem_take hx))
  have hlen := congrArg List.length hs
  rw [c.length_cased hsingle, List.length_take, ahead, List.length_drop] at hlen
  have hle := c.length_le_length_cased l
  have hd : d.InText := by
    have hstart := start_le_length hc.inText
    unfold InText
    rw [hm]
    change c.start + l.length ≤ c.text.length
    omega
  obtain ⟨s, hlen, -, hp⟩ := Cursor.exists_passes_of_literal? h hd
  exact ⟨s, hlen, hp⟩

/-- A literal that matches leads onward. -/
theorem onward_of_literal? (hc : c.Faithful) (h : c.literal? l = some d) : c.Onward d := by
  obtain ⟨s, -, hs⟩ := hc.exists_passes_of_literal? h
  exact hs.onward hc.inText

/-- What is chosen has been passed over. -/
theorem exists_passes_of_choose? {α : Type} {spellings : List (List Char × α)} {a : α}
    (hc : c.Faithful) (h : c.choose? spellings = some (a, d)) :
    ∃ s, c.Passes (c.skipped ++ s) d := by
  obtain ⟨l, -, hl⟩ := exists_literal?_of_choose? h
  obtain ⟨s, -, hp⟩ := hc.exists_passes_of_literal? hl
  exact ⟨s, hp⟩

/-- A search stops within the text. -/
theorem stop_le_length (hc : c.Faithful) : c.stop l ≤ c.text.length := by
  rw [stop]
  cases h : occurrenceFrom? (c.cased l) (c.cased c.text) c.start with
  | none => exact Nat.le_refl _
  | some n =>
    have hle := (le_of_occurrenceFrom? h).2
    rw [c.length_cased hc.foldsSingly] at hle
    rw [Option.getD_some]
    omega

/-- A search passes over what it takes. -/
theorem passes_of_upTo? (hc : c.Faithful) (h : c.upTo? l = some (s, d)) :
    c.Passes (c.skipped ++ s) d :=
  Cursor.passes_of_upTo? h (start_le_stop (start_le_length hc.inText)) hc.stop_le_length

end Faithful

end DependencyClause.Cursor
