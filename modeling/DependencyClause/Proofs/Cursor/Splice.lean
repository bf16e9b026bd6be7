import DependencyClause.Proofs.Cursor.Scan

/-!
# Cursors in a text that goes on otherwise

`c.splice n z` is the cursor `c` in a text that agrees with its own up to the offset `n` and goes on
with `z` from there. A literal that is found in front of the offset is found there as well, whatever
the text goes on with.
-/

namespace DependencyClause.Cursor

open Text

/-- The cursor in the text that goes on with `z` from the offset `n` on. -/
def splice (n : Nat) (z : List Char) (c : Cursor) : Cursor := { c with text := c.text.take n ++ z }

variable {n : Nat} {l s z : List Char} {c d : Cursor}

@[simp] theorem skip_splice : (c.splice n z).skip = c.skip := rfl

/-- From a cursor in front of the offset on, the text is cut at the offset and goes on. -/
theorem remaining_splice (hc : c.location ≤ n) (hn : n ≤ c.text.length) :
    (c.splice n z).remaining = c.remaining.take (n - c.location) ++ z := by
  have hlen : c.location ≤ (c.text.take n).length := by
    rw [List.length_take]
    omega
  change (c.text.take n ++ z).drop c.location = _
  rw [List.drop_append_of_le_length hlen, List.drop_take, remaining]

/-- What is passed over in front of the offset is passed over whatever the text goes on with. -/
theorem Passes.splice (h : c.Passes s d) (hd : d.location ≤ n) (hn : n ≤ c.text.length) :
    (c.splice n z).Passes s (d.splice n z) where
  remaining_eq := by
    have hloc := h.location_eq
    rw [remaining_splice (by omega) hn, remaining_splice hd (h.text_eq ▸ hn), h.remaining_eq,
      List.take_append, List.take_of_length_le (by omega), hloc, Nat.sub_sub, List.append_assoc]
  moved := by
    rw [h.moved]
    rfl

/-- A literal that matches in front of the offset matches whatever the text goes on with. -/
theorem literal?_splice (h : c.literal? l = some d) (hd : d.location ≤ n)
    (hn : n ≤ c.text.length) : (c.splice n z).literal? l = some (d.splice n z) := by
  have hin : d.InText := by
    unfold InText
    rw [text_of_literal? h]
    omega
  obtain ⟨s, hlen, hs, hp⟩ := exists_passes_of_literal? h hin
  have hne : l ≠ [] := (literal?_eq_some_iff.mp h).1.1
  have hsplice : (c.splice n z).Passes (c.skipped ++ s) (d.splice n z) := hp.splice hd hn
  -- The text that was matched starts where the scan did, so the scan starts there again.
  have hhead : ∀ x ∈ (s ++ (d.splice n z).remaining).head?, x ∉ c.skip := by
    have hahead := c.not_mem_skip_of_head?_ahead
    rw [hp.ahead_eq] at hahead
    cases s with
    | nil => exact absurd (List.length_eq_zero_iff.mp hlen.symm) hne
    | cons y t => exact hahead
  have hskip : ∀ x ∈ c.skipped, x ∈ c.skip := fun _ => mem_skip_of_mem_skipped
  have hskipped : (c.splice n z).skipped = c.skipped :=
    (skipped_eq (hsplice.remaining_eq.trans (List.append_assoc _ _ _)) hskip hhead).1
  exact literal?_of_passes hne hlen hs (hskipped.symm ▸ hsplice)

/-- Where the text goes on with `z` right behind the cursor, passing over `z` leads to the end. -/
theorem exists_passes_splice (hc : c.InText) (z : List Char) :
    ∃ d, (c.splice c.location z).Passes z d ∧
      d.location = (c.splice c.location z).text.length := by
  have hrem : (c.splice c.location z).remaining = z ++ [] := by
    rw [remaining_splice (Nat.le_refl _) hc, Nat.sub_self, List.take_zero, List.nil_append,
      List.append_nil]
  obtain ⟨d, hd, -⟩ := exists_passes hrem
  refine ⟨d, hd, ?_⟩
  have hlen : (c.splice c.location z).text.length = min c.location c.text.length + z.length := by
    rw [splice, List.length_append, List.length_take]
  rw [hd.location_eq, hlen, Nat.min_eq_left hc]
  rfl

end DependencyClause.Cursor
