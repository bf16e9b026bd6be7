/-!
# Occurrences

`occurrence?` finds where a text first occurs in another one; an occurrence is the offset of its
first character. The empty text occurs at every offset up to the end, and nowhere past it.
-/

namespace DependencyClause.Text

/-- The least offset at which `needle` occurs in the text. -/
def occurrence? (needle : List Char) : List Char → Option Nat
  | [] => if needle = [] then some 0 else none
  | c :: t =>
    if needle.isPrefixOf (c :: t) then some 0 else (occurrence? needle t).map (· + 1)

/-- The least offset from `start` on at which `needle` occurs in the text. -/
def occurrenceFrom? (needle t : List Char) (start : Nat) : Option Nat :=
  if start ≤ t.length then (occurrence? needle (t.drop start)).map (start + ·) else none

/-- An occurrence cuts the text into what comes before, the text sought, and the rest. -/
theorem exists_eq_append_of_occurrence? {needle t : List Char} {n : Nat}
    (h : occurrence? needle t = some n) : ∃ l r, t = l ++ needle ++ r ∧ l.length = n := by
  induction t generalizing n with
  | nil =>
    simp only [occurrence?] at h
    split at h
    · next hn => cases h; exact ⟨[], [], by simp [hn], rfl⟩
    · cases h
  | cons c t ih =>
    simp only [occurrence?] at h
    split at h
    · next hp =>
      cases h
      obtain ⟨r, hr⟩ := List.isPrefixOf_iff_prefix.1 hp
      exact ⟨[], r, by simp [hr], rfl⟩
    · obtain ⟨m, hm, rfl⟩ := Option.map_eq_some_iff.1 h
      obtain ⟨l, r, rfl, rfl⟩ := ih hm
      exact ⟨c :: l, r, by simp, rfl⟩

theorem occurrence?_of_prefix {needle t : List Char} (h : needle <+: t) :
    occurrence? needle t = some 0 := by
  cases t with
  | nil => rw [occurrence?, if_pos (List.prefix_nil.1 h)]
  | cons c t => rw [occurrence?, if_pos (List.isPrefixOf_iff_prefix.2 h)]

/-- Where a text occurs, it is found there or at an earlier place. -/
theorem exists_occurrence?_le (l needle r : List Char) :
    ∃ n, occurrence? needle (l ++ needle ++ r) = some n ∧ n ≤ l.length := by
  induction l with
  | nil => exact ⟨0, occurrence?_of_prefix (List.prefix_append needle r), Nat.le_refl 0⟩
  | cons c l ih =>
    obtain ⟨n, hn, hle⟩ := ih
    rw [List.cons_append, List.cons_append, occurrence?]
    split
    · exact ⟨0, rfl, Nat.zero_le _⟩
    · exact ⟨n + 1, by rw [hn]; rfl, Nat.succ_le_succ hle⟩

theorem le_of_occurrenceFrom? {needle t : List Char} {start n : Nat}
    (h : occurrenceFrom? needle t start = some n) : start ≤ n ∧ n + needle.length ≤ t.length := by
  simp only [occurrenceFrom?] at h
  split at h
  · next hs =>
    obtain ⟨m, hm, rfl⟩ := Option.map_eq_some_iff.1 h
    obtain ⟨l, r, he, rfl⟩ := exists_eq_append_of_occurrence? hm
    have := congrArg List.length he
    simp only [List.length_drop, List.length_append] at this
    omega
  · cases h

end DependencyClause.Text
