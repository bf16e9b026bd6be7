import DependencyClause.Proofs.Cursor.Passage

/-!
# What each scan takes

A literal takes a text of its own length that is compared alike, a run takes characters up to the
first that does not belong to it, and a search takes the text up to what it seeks. A literal of
marks takes nothing but itself, whether or not the cursor minds case. Where no spelling begins
another one, at most one of them lies ahead, so their order does not count.
-/

namespace DependencyClause.Cursor

open Text

variable {c d : Cursor} {l s : List Char}

theorem Passes.ahead_eq (h : c.Passes (c.skipped ++ s) d) : c.ahead = s ++ d.remaining := by
  have hr := c.skipped_append_ahead.trans h.remaining_eq
  rw [List.append_assoc] at hr
  exact List.append_cancel_left hr

/-- What lies ahead of a scan can be passed over with the characters to skip. -/
theorem exists_passes_of_ahead {t : List Char} (h : c.ahead = s ++ t) :
    ∃ d, c.Passes (c.skipped ++ s) d ∧ d.remaining = t := by
  have hr := c.skipped_append_ahead
  rw [h, ← List.append_assoc] at hr
  exact exists_passes hr.symm

/-- A literal matches a text of its own length that is compared alike. -/
theorem literal?_of_passes (hl : l ≠ []) (hlen : s.length = l.length) (hs : c.cased s = c.cased l)
    (h : c.Passes (c.skipped ++ s) d) : c.literal? l = some d := by
  have ht : c.ahead.take l.length = s := by
    rw [h.ahead_eq, ← hlen]
    exact List.take_left
  refine literal?_eq_some_iff.mpr ⟨⟨hl, by rw [ht, hs]⟩, ?_⟩
  rw [h.moved, start_eq, List.length_append, hlen, Nat.add_assoc]

/-- A literal right ahead, which does not start with a character to skip, matches itself. -/
theorem literal?_of_passes_here (hl : l ≠ []) (hskip : ∀ x ∈ l.head?, x ∉ c.skip)
    (h : c.Passes l d) : c.literal? l = some d := by
  have hhead : ∀ x ∈ (l ++ d.remaining).head?, x ∉ c.skip := by
    obtain ⟨y, t, rfl⟩ := List.exists_cons_of_ne_nil hl
    exact hskip
  have hskipped := (skipped_eq (w := []) h.remaining_eq nofun hhead).1
  refine literal?_of_passes hl rfl rfl ?_
  rwa [hskipped, List.nil_append]

theorem literal?_of_passes_mark {x : Char} (hx : x ∉ c.skip) (h : c.Passes [x] d) :
    c.literal? [x] = some d :=
  literal?_of_passes_here (List.cons_ne_nil x []) (by simpa using hx) h

/-- A literal that leaves the cursor in the text has passed over a text of its own length. -/
theorem exists_passes_of_literal? (h : c.literal? l = some d) (hd : d.InText) :
    ∃ s, s.length = l.length ∧ c.cased s = c.cased l ∧ c.Passes (c.skipped ++ s) d := by
  obtain ⟨⟨-, hs⟩, hm⟩ := literal?_eq_some_iff.mp h
  have hlen : (c.ahead.take l.length).length = l.length := by
    have hle : c.start + l.length ≤ c.text.length := by
      unfold InText at hd
      rw [hm] at hd
      exact hd
    rw [List.length_take, ahead, List.length_drop]
    omega
  obtain ⟨e, he, -⟩ := exists_passes_of_ahead (List.take_append_drop l.length c.ahead).symm
  have hde : d = e := by
    rw [hm, he.moved, List.length_append, hlen, start_eq, Nat.add_assoc]
  exact ⟨_, hlen, hs, hde ▸ he⟩

/-- However texts are compared, none is shortened. -/
theorem length_le_length_cased (c : Cursor) (l : List Char) : l.length ≤ (c.cased l).length := by
  rw [cased]
  split
  · exact Nat.le_refl _
  · exact length_le_length_fold l

/-- Texts that are compared alike fold alike. -/
theorem fold_eq_of_cased_eq (h : c.cased s = c.cased l) : fold s = fold l := by
  rw [cased, cased] at h
  split at h
  · rw [h]
  · exact h

theorem eq_of_cased_eq_marks (hl : ∀ x ∈ l, IsMark x) (h : c.cased s = c.cased l) : s = l :=
  eq_of_fold_eq_marks hl (fold_eq_of_cased_eq h)

/-- A literal of marks passes over itself and nothing else. -/
theorem literal?_marks_eq_some_iff (hl : ∀ x ∈ l, IsMark x) (hne : l ≠ []) :
    c.literal? l = some d ↔ c.Passes (c.skipped ++ l) d := by
  refine ⟨fun h => ?_, literal?_of_passes hne rfl rfl⟩
  obtain ⟨⟨-, hs⟩, hm⟩ := literal?_eq_some_iff.mp h
  have ht : c.ahead.take l.length = l := eq_of_cased_eq_marks hl hs
  have ha := List.take_append_drop l.length c.ahead
  rw [ht] at ha
  obtain ⟨e, he, -⟩ := exists_passes_of_ahead ha.symm
  have hde : d = e := by
    rw [hm, he.moved, List.length_append, start_eq, Nat.add_assoc]
  exact hde ▸ he

/-- A literal of marks fails exactly where it does not lie ahead. -/
theorem literal?_marks_eq_none_iff (hl : ∀ x ∈ l, IsMark x) (hne : l ≠ []) :
    c.literal? l = none ↔ ¬ l <+: c.ahead := by
  rw [Option.eq_none_iff_forall_ne_some]
  constructor
  · rintro h ⟨t, ht⟩
    obtain ⟨d, hd, -⟩ := exists_passes_of_ahead ht.symm
    exact h d ((literal?_marks_eq_some_iff hl hne).mpr hd)
  · intro h d hd
    have hp := (literal?_marks_eq_some_iff hl hne).mp hd
    exact h ⟨d.remaining, hp.ahead_eq.symm⟩

/-- A literal that starts with a mark fails where another character lies ahead, or none. -/
theorem literal?_eq_none_of_head? {x : Char} (hx : IsMark x) (h : c.ahead.head? ≠ some x) :
    c.literal? (x :: l) = none := by
  cases hd : c.literal? (x :: l) with
  | none => rfl
  | some d =>
    obtain ⟨⟨-, hs⟩, -⟩ := literal?_eq_some_iff.mp hd
    have hf := fold_eq_of_cased_eq hs
    rw [fold_cons, hx.foldChar_eq, List.cons_append, List.nil_append] at hf
    obtain ⟨r, hr, -⟩ := hx.exists_cons_of_fold_eq hf
    cases ha : c.ahead with
    | nil =>
      rw [ha, List.take_nil] at hr
      exact absurd hr nofun
    | cons y t =>
      rw [ha, List.length_cons, List.take_succ_cons, List.cons.injEq] at hr
      rw [ha, hr.1] at h
      exact absurd rfl h

/-- Of two literals that match at one place, one folds to a beginning of the folding of the
other. -/
theorem fold_prefix_of_literal? {m : List Char} {e : Cursor} (hl : c.literal? l = some d)
    (hm : c.literal? m = some e) (hle : l.length ≤ m.length) : fold l <+: fold m := by
  obtain ⟨⟨-, hl⟩, -⟩ := literal?_eq_some_iff.mp hl
  obtain ⟨⟨-, hm⟩, -⟩ := literal?_eq_some_iff.mp hm
  have hp : c.ahead.take l.length <+: c.ahead.take m.length := by
    have ht := List.take_prefix l.length (c.ahead.take m.length)
    rwa [List.take_take, Nat.min_eq_left hle] at ht
  rw [← fold_eq_of_cased_eq hl, ← fold_eq_of_cased_eq hm]
  exact fold_prefix hp

/-- No spelling in the list begins another one, however they are cased. -/
def Unambiguous {α : Type} (spellings : List (List Char × α)) : Prop :=
  ∀ p ∈ spellings, ∀ q ∈ spellings, fold p.1 <+: fold q.1 → p = q

instance {α : Type} [DecidableEq α] (spellings : List (List Char × α)) :
    Decidable (Unambiguous spellings) :=
  inferInstanceAs (Decidable (∀ p ∈ spellings, ∀ q ∈ spellings, _ → _))

variable {α : Type} {spellings : List (List Char × α)} {a : α}

/-- Of unambiguous spellings at most one lies ahead. -/
theorem Unambiguous.eq_of_literal? (hu : Unambiguous spellings) {p q : List Char × α}
    (hp : p ∈ spellings) (hq : q ∈ spellings) {d e : Cursor} (hd : c.literal? p.1 = some d)
    (he : c.literal? q.1 = some e) : p = q := by
  rcases Nat.le_total p.1.length q.1.length with hle | hle
  · exact hu p hp q hq (fold_prefix_of_literal? hd he hle)
  · exact (hu q hq p hp (fold_prefix_of_literal? he hd hle)).symm

/-- A choice among unambiguous spellings finds the one that lies ahead, wherever it stands. -/
theorem Unambiguous.choose?_eq_some_iff (hu : Unambiguous spellings) :
    c.choose? spellings = some (a, d) ↔ ∃ s, (s, a) ∈ spellings ∧ c.literal? s = some d := by
  refine ⟨exists_literal?_of_choose?, ?_⟩
  rintro ⟨s, hs, hd⟩
  cases hc : c.choose? spellings with
  | none =>
    have hn := List.findSome?_eq_none_iff.mp hc (s, a) hs
    simp [hd] at hn
  | some found =>
    obtain ⟨b, e⟩ := found
    obtain ⟨t, ht, he⟩ := exists_literal?_of_choose? hc
    have heq := hu.eq_of_literal? hs ht hd he
    rw [Prod.mk.injEq] at heq
    obtain ⟨rfl, rfl⟩ := heq
    rw [Option.some.inj (hd.symm.trans he)]

/-- The order of unambiguous spellings does not count, nor does it how often each is listed. -/
theorem Unambiguous.choose?_congr {m : List (List Char × α)} (hu : Unambiguous spellings)
    (h : ∀ p, p ∈ m ↔ p ∈ spellings) (c : Cursor) : c.choose? m = c.choose? spellings := by
  have hm : Unambiguous m := fun p hp q hq => hu p ((h p).mp hp) q ((h q).mp hq)
  refine Option.ext fun r => ?_
  obtain ⟨a, d⟩ := r
  rw [hm.choose?_eq_some_iff, hu.choose?_eq_some_iff]
  simp only [h]

/-- A choice finds nothing where no spelling lies ahead. -/
theorem choose?_eq_none_iff :
    c.choose? spellings = none ↔ ∀ p ∈ spellings, c.literal? p.1 = none := by
  rw [choose?, List.findSome?_eq_none_iff]
  simp

theorem takeWhile_eq_nil_of_head? {p : Char → Bool} {t : List Char}
    (h : ∀ x ∈ t.head?, p x = false) : t.takeWhile p = [] := by
  cases t with
  | nil => rfl
  | cons x t => simp [h x rfl]

/-- A run is not empty, and ends where its characters end. -/
theorem runWhile?_eq_some_iff {p : Char → Bool} :
    c.runWhile? p = some (s, d) ↔
      c.Passes (c.skipped ++ s) d ∧ s ≠ [] ∧ (∀ x ∈ s, p x = true) ∧
        ∀ x ∈ d.remaining.head?, p x = false := by
  constructor
  · intro h
    simp only [runWhile?] at h
    split at h
    · exact absurd h nofun
    · next hne =>
      rw [Option.some.injEq, Prod.mk.injEq] at h
      obtain ⟨rfl, rfl⟩ := h
      obtain ⟨e, he, hr⟩ :=
        exists_passes_of_ahead (List.takeWhile_append_dropWhile (p := p) (l := c.ahead)).symm
      have hm := he.moved
      rw [List.length_append, ← Nat.add_assoc, ← start_eq] at hm
      rw [← hm]
      refine ⟨he, hne, fun x hx => List.all_eq_true.mp List.all_takeWhile x hx, ?_⟩
      intro x hx
      have hn := List.head?_dropWhile_not (p := p) c.ahead
      rw [hr] at hx
      rw [Option.mem_def.mp hx] at hn
      simpa using hn
  · rintro ⟨hp, hne, hs, hd⟩
    have hrun : c.ahead.takeWhile p = s := by
      rw [hp.ahead_eq, List.takeWhile_append_of_pos hs, takeWhile_eq_nil_of_head? hd,
        List.append_nil]
    simp only [runWhile?, hrun, if_neg hne, Option.some.injEq, Prod.mk.injEq, true_and]
    rw [hp.moved, List.length_append, ← Nat.add_assoc, start_eq]

/-- There is no run where its characters do not start. -/
theorem runWhile?_eq_none_iff {p : Char → Bool} :
    c.runWhile? p = none ↔ ∀ x ∈ c.ahead.head?, p x = false := by
  simp only [runWhile?]
  cases ha : c.ahead with
  | nil => simp
  | cons y t =>
    by_cases hy : p y = true
    · simp [hy]
    · simp [hy]

theorem run?_eq_some_iff {k : CharSet} :
    c.run? k = some (s, d) ↔
      c.Passes (c.skipped ++ s) d ∧ s ≠ [] ∧ (∀ x ∈ s, x ∈ k) ∧ ∀ x ∈ d.remaining.head?, x ∉ k := by
  rw [run?, runWhile?_eq_some_iff]
  simp

theorem run?_eq_none_iff {k : CharSet} : c.run? k = none ↔ ∀ x ∈ c.ahead.head?, x ∉ k := by
  rw [run?, runWhile?_eq_none_iff]
  simp

/-- A search does not stop behind its start. -/
theorem start_le_stop (hc : c.start ≤ c.text.length) : c.start ≤ c.stop l := by
  rw [stop]
  cases h : occurrenceFrom? (c.cased l) (c.cased c.text) c.start with
  | none => exact hc
  | some n => exact (le_of_occurrenceFrom? h).1

theorem moved_of_upTo? (h : c.upTo? l = some (s, d)) : d = { c with location := c.stop l } := by
  rw [upTo?] at h
  split at h
  · exact absurd h nofun
  · exact (Prod.mk.inj (Option.some.inj h)).2.symm

/-- A search that stops ahead in the text passes over what it takes. -/
theorem passes_of_upTo? (h : c.upTo? l = some (s, d)) (hs : c.start ≤ c.stop l)
    (hl : c.stop l ≤ c.text.length) : c.Passes (c.skipped ++ s) d := by
  rw [upTo?] at h
  split at h
  · exact absurd h nofun
  · rw [Option.some.injEq, Prod.mk.injEq] at h
    obtain ⟨rfl, rfl⟩ := h
    have hlen : ((c.text.take (c.stop l)).drop c.start).length = c.stop l - c.start := by
      rw [List.length_drop, List.length_take, Nat.min_eq_left hl]
    have ha : c.ahead = (c.text.take (c.stop l)).drop c.start ++ c.text.drop (c.stop l) := by
      have ht : c.start ≤ (c.text.take (c.stop l)).length := by
        rw [List.length_take, Nat.min_eq_left hl]
        exact hs
      conv => lhs; rw [ahead, ← List.take_append_drop (c.stop l) c.text]
      exact List.drop_append_of_le_length ht
    obtain ⟨e, he, -⟩ := exists_passes_of_ahead ha
    have hm := he.moved
    rw [List.length_append, ← Nat.add_assoc, ← start_eq, hlen, Nat.add_sub_cancel' hs] at hm
    exact hm ▸ he

/-- A search takes what lies ahead of the place where it stops. -/
theorem upTo?_of_passes (h : c.Passes (c.skipped ++ s) d) (hs : s ≠ [])
    (hl : c.stop l = c.start + s.length) : c.upTo? l = some (s, d) := by
  have hpos : 0 < s.length := List.length_pos_iff.mpr hs
  have htake : (c.text.take (c.start + s.length)).drop c.start = s := by
    rw [List.drop_take, Nat.add_sub_cancel_left]
    change c.ahead.take s.length = s
    rw [h.ahead_eq]
    exact List.take_left
  rw [upTo?, if_neg (by omega), hl, htake, h.moved, List.length_append, ← Nat.add_assoc, start_eq]

/-- Where what is behind the scan folds singly, the text ahead alone decides where a search
stops. -/
theorem stop_eq (hc : c.start ≤ c.text.length) (hb : ∀ x ∈ c.text.take c.start, FoldsSingly x) :
    c.stop l =
      ((occurrence? (c.cased l) (c.cased c.ahead)).map (c.start + ·)).getD c.text.length := by
  have hle : c.start ≤ (c.cased c.text).length :=
    Nat.le_trans hc (c.length_le_length_cased c.text)
  have hd : (c.cased c.text).drop c.start = c.cased c.ahead := by
    rw [cased, cased]
    split
    · rfl
    · exact drop_fold hc hb
  rw [stop, occurrenceFrom?, if_pos hle, hd]

end DependencyClause.Cursor
