import DependencyClause.Cursor.Lemmas
import DependencyClause.Proofs.Text.Quotable

/-!
# What a scan passes over

`c.Passes s d` says that the text `s` lies ahead of the cursor `c` and that `d` is `c` moved behind
it. Every scan is told in these terms: what it passes over is the run of characters to skip and,
behind it, what the scan itself takes.
-/

namespace DependencyClause.Cursor

open Text

/-- The cursor lies in its text, or at the end of it. -/
def InText (c : Cursor) : Prop := c.location ≤ c.text.length

instance (c : Cursor) : Decidable c.InText := inferInstanceAs (Decidable (_ ≤ _))

/-- What is behind the cursor folds singly, so that its location is one of the folded text too. -/
def Aligned (c : Cursor) : Prop := ∀ x ∈ c.text.take c.location, FoldsSingly x

/-- The characters that the next scan passes over before it starts. -/
def skipped (c : Cursor) : List Char := c.remaining.takeWhile (· ∈ c.skip)

/-- The text `s` lies ahead of `c`, and `d` is `c` moved behind it. -/
structure Passes (c : Cursor) (s : List Char) (d : Cursor) : Prop where
  /-- What is ahead of `c` is the text and what is ahead of `d`. -/
  remaining_eq : c.remaining = s ++ d.remaining
  /-- Nothing but the location changes. -/
  moved : d = { c with location := c.location + s.length }

theorem start_eq (c : Cursor) : c.start = c.location + c.skipped.length := rfl

theorem ahead_eq_dropWhile (c : Cursor) : c.ahead = c.remaining.dropWhile (· ∈ c.skip) := by
  have ha : c.ahead = c.remaining.drop c.skipped.length := by
    rw [ahead, start_eq, remaining, List.drop_drop]
  have hs := List.takeWhile_append_dropWhile (p := fun x => decide (x ∈ c.skip)) (l := c.remaining)
  rw [ha]
  conv => lhs; rw [← hs]
  exact List.drop_left

/-- What remains is the characters to skip and, behind them, what is ahead of the scan. -/
theorem skipped_append_ahead (c : Cursor) : c.skipped ++ c.ahead = c.remaining := by
  rw [ahead_eq_dropWhile]
  exact List.takeWhile_append_dropWhile

theorem mem_skip_of_mem_skipped {c : Cursor} {x : Char} (h : x ∈ c.skipped) : x ∈ c.skip := by
  have hall : c.skipped.all (· ∈ c.skip) = true := List.all_takeWhile
  simpa using List.all_eq_true.mp hall x h

/-- What is ahead of a scan does not start with a character to skip. -/
theorem not_mem_skip_of_head?_ahead (c : Cursor) : ∀ x ∈ c.ahead.head?, x ∉ c.skip := by
  intro x hx
  have hn := List.head?_dropWhile_not (p := (· ∈ c.skip)) c.remaining
  rw [ahead_eq_dropWhile] at hx
  rw [Option.mem_def.mp hx] at hn
  simpa using hn

/-- Without characters to skip a scan starts at the cursor. -/
theorem skipped_of_skip_empty {c : Cursor} (h : c.skip = ∅) : c.skipped = [] := by
  rw [List.eq_nil_iff_forall_not_mem]
  intro x hx
  have hm := mem_skip_of_mem_skipped hx
  rw [h] at hm
  exact CharSet.not_mem_empty x hm

theorem start_of_skip_empty {c : Cursor} (h : c.skip = ∅) : c.start = c.location := by
  rw [start_eq, skipped_of_skip_empty h]
  rfl

theorem ahead_of_skip_empty {c : Cursor} (h : c.skip = ∅) : c.ahead = c.remaining := by
  rw [ahead, start_of_skip_empty h]
  rfl

/-- Where a run of characters to skip lies ahead and nothing to skip behind it, it is skipped. -/
theorem skipped_eq {c : Cursor} {w t : List Char} (h : c.remaining = w ++ t)
    (hw : ∀ x ∈ w, x ∈ c.skip) (ht : ∀ x ∈ t.head?, x ∉ c.skip) : c.skipped = w ∧ c.ahead = t := by
  have hs : c.skipped = w := by
    rw [skipped, h, List.takeWhile_append_of_pos (by simpa using hw)]
    cases t with
    | nil => simp
    | cons y t =>
      have hy := ht y rfl
      simp [hy]
  have ha := c.skipped_append_ahead
  rw [h, hs] at ha
  exact ⟨hs, List.append_cancel_left ha⟩

namespace Passes

variable {c d e : Cursor} {s t : List Char}

theorem text_eq (h : c.Passes s d) : d.text = c.text := by rw [h.moved]

theorem skip_eq (h : c.Passes s d) : d.skip = c.skip := by rw [h.moved]

theorem caseSensitive_eq (h : c.Passes s d) : d.caseSensitive = c.caseSensitive := by rw [h.moved]

theorem location_eq (h : c.Passes s d) : d.location = c.location + s.length := by rw [h.moved]

theorem refl (c : Cursor) : c.Passes [] c := ⟨rfl, rfl⟩

theorem append (h : c.Passes s d) (h' : d.Passes t e) : c.Passes (s ++ t) e := by
  refine ⟨?_, ?_⟩
  · rw [h.remaining_eq, h'.remaining_eq, List.append_assoc]
  · rw [h'.moved, h.moved, List.length_append, Nat.add_assoc]

/-- What is passed over does not depend on what scans skip. -/
theorem setSkip (h : c.Passes s d) (k : CharSet) :
    ({ c with skip := k } : Cursor).Passes s { d with skip := k } :=
  ⟨h.remaining_eq, by rw [h.moved]⟩

theorem inText (h : c.Passes s d) (hc : c.InText) : d.InText := by
  have hl := congrArg List.length h.remaining_eq
  rw [remaining, List.length_drop, List.length_append] at hl
  have hd := h.location_eq
  have ht := congrArg List.length h.text_eq
  unfold InText at hc ⊢
  omega

theorem aligned (h : c.Passes s d) (hc : c.Aligned) (hs : ∀ x ∈ s, FoldsSingly x) :
    d.Aligned := by
  intro x hx
  rw [h.text_eq, h.location_eq, List.take_add] at hx
  rcases List.mem_append.mp hx with hx | hx
  · exact hc x hx
  · change x ∈ c.remaining.take s.length at hx
    rw [h.remaining_eq, List.take_left] at hx
    exact hs x hx

/-- A cursor in the text can be put back to where it was. -/
theorem moveTo_back (h : c.Passes s d) (hc : c.InText) : d.moveTo c.location = .ok c := by
  have hl : (c.location : Int) ≤ d.text.length := by
    rw [h.text_eq]
    exact Int.ofNat_le.mpr hc
  rw [moveTo, if_pos ⟨Int.natCast_nonneg _, hl⟩, h.moved]
  rfl

end Passes

/-- Whatever lies ahead can be passed over. -/
theorem exists_passes {c : Cursor} {s t : List Char} (h : c.remaining = s ++ t) :
    ∃ d, c.Passes s d ∧ d.remaining = t := by
  have hr : ({ c with location := c.location + s.length } : Cursor).remaining = t := by
    change c.text.drop (c.location + s.length) = t
    rw [← List.drop_drop]
    change c.remaining.drop s.length = t
    rw [h]
    exact List.drop_left
  exact ⟨_, ⟨by rw [hr, h], rfl⟩, hr⟩

/-- What is passed over first is passed over on the way. -/
theorem Passes.split {c e : Cursor} {s t : List Char} (h : c.Passes (s ++ t) e) :
    ∃ d, c.Passes s d ∧ d.Passes t e := by
  obtain ⟨d, hd, hr⟩ := exists_passes (h.remaining_eq.trans (List.append_assoc s t e.remaining))
  refine ⟨d, hd, ⟨hr, ?_⟩⟩
  rw [h.moved, hd.moved, List.length_append, Nat.add_assoc]

end DependencyClause.Cursor
