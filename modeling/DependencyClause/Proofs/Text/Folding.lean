import DependencyClause.Text.CaseFold.Basic
import DependencyClause.Text.CharSet

/-!
# What case folding leaves alone

Folding never shortens a text, and it keeps the length exactly where every character folds to a
single one. A mark is an ASCII character that is no letter: it folds to itself, and the folding of
no other character holds it. So a text written in marks lies ahead folded only where it lies ahead
as it is.
-/

namespace DependencyClause.Text

/-- What is checked member by member holds of all members. -/
theorem forall_mem_of_all {α : Type} {P : α → Prop} [DecidablePred P] {l : List α}
    (h : l.all (P ·) = true) : ∀ x ∈ l, P x := by
  simpa using h

/-- What is checked of the listed characters holds of the set, whose order need not be computed. -/
theorem forall_mem_ofList_of_all {P : Char → Prop} [DecidablePred P] {l : List Char}
    (h : l.all (P ·) = true) : ∀ c ∈ CharSet.ofList l, P c :=
  fun c hc => forall_mem_of_all h c (CharSet.mem_ofList.mp hc)

/-- Folding never shortens a text. -/
theorem length_le_length_fold (t : List Char) : t.length ≤ (fold t).length := by
  induction t with
  | nil => exact Nat.le_refl 0
  | cons c t ih =>
    have hc : 0 < (foldChar c).length := List.length_pos_iff.mpr (foldChar_ne_nil c)
    rw [fold_cons, List.length_append, List.length_cons]
    omega

/-- Folding keeps the length of a text exactly if it does so with every character. -/
theorem length_fold_eq_iff {t : List Char} :
    (fold t).length = t.length ↔ ∀ c ∈ t, FoldsSingly c := by
  refine ⟨fun h => ?_, length_fold⟩
  induction t with
  | nil => exact fun c hc => absurd hc List.not_mem_nil
  | cons c t ih =>
    have hc : 0 < (foldChar c).length := List.length_pos_iff.mpr (foldChar_ne_nil c)
    have ht := length_le_length_fold t
    rw [fold_cons, List.length_append, List.length_cons] at h
    have hs : FoldsSingly c := by
      change (foldChar c).length = 1
      omega
    intro d hd
    rcases List.mem_cons.mp hd with rfl | hd
    · exact hs
    · exact ih (by omega) d hd

/-- Two texts that fold alike are of one length if both fold singly. -/
theorem length_eq_of_fold_eq {s t : List Char} (h : fold s = fold t)
    (hs : ∀ c ∈ s, FoldsSingly c) (ht : ∀ c ∈ t, FoldsSingly c) : s.length = t.length := by
  rw [← length_fold hs, h, length_fold ht]

/-- Where what comes before keeps its length, the folding of a text is cut where the text is. -/
theorem drop_fold {t : List Char} {n : Nat} (hn : n ≤ t.length)
    (h : ∀ c ∈ t.take n, FoldsSingly c) : (fold t).drop n = fold (t.drop n) := by
  have hl : (fold (t.take n)).length = n := by
    rw [length_fold h, List.length_take, Nat.min_eq_left hn]
  have ht : fold t = fold (t.take n) ++ fold (t.drop n) := by
    rw [← fold_append, List.take_append_drop]
  rw [ht, List.drop_append_of_le_length (Nat.le_of_eq hl.symm), List.drop_of_length_le
    (Nat.le_of_eq hl), List.nil_append]

/-- The folding of a beginning is a beginning of the folding. -/
theorem fold_prefix {s t : List Char} (h : s <+: t) : fold s <+: fold t := by
  obtain ⟨r, rfl⟩ := h
  exact ⟨fold r, (fold_append s r).symm⟩

/-- An ASCII character that is not a letter. -/
def IsMark (x : Char) : Prop := x.toNat < 0x80 ∧ x.isAlpha = false ∧ x ≠ '\x00'

instance (x : Char) : Decidable (IsMark x) := inferInstanceAs (Decidable (_ ∧ _))

/-- What a mark cannot be: the null character, which stands for no code point, a letter, or a
character beyond ASCII. -/
private def IsImage (y : Char) : Prop := 0x80 ≤ y.toNat ∨ y.isAlpha = true ∨ y = '\x00'

private instance (y : Char) : Decidable (IsImage y) := inferInstanceAs (Decidable (_ ∨ _))

private theorem IsMark.not_isImage {x : Char} (h : IsMark x) : ¬ IsImage x := by
  rintro (hx | hx | hx)
  · exact absurd h.1 (Nat.not_lt.mpr hx)
  · exact absurd h.2.1 (by simp [hx])
  · exact h.2.2 hx

private theorem isImage_longFolding {e : Nat × List Nat} (h : e ∈ longFoldings) :
    ∀ n ∈ e.2, IsImage (Char.ofNat n) := by
  have hall : ∀ e ∈ longFoldings, ∀ n ∈ e.2, IsImage (Char.ofNat n) := by decide +kernel
  exact hall e h

/-- A run either stays beyond ASCII or is a single code point that folds to a letter. -/
private theorem shiftedRun_range {r : ShiftedRun} (h : r ∈ shiftedRuns) :
    0x80 ≤ r.image ∨ r.first = r.last ∧ IsImage (Char.ofNat r.image) := by
  have hall : ∀ r ∈ shiftedRuns,
      0x80 ≤ r.image ∨ r.first = r.last ∧ IsImage (Char.ofNat r.image) := by decide +kernel
  exact hall r h

/-- Beyond ASCII there are only code points that are not ASCII, and the null character for numbers
that are no code points. -/
private theorem isImage_ofNat {n : Nat} (h : 0x80 ≤ n) : IsImage (Char.ofNat n) := by
  by_cases hn : n.isValidChar
  · refine Or.inl ?_
    have he : (Char.ofNat n).toNat = n := by
      rw [Char.ofNat, dif_pos hn]
      rfl
    omega
  · refine Or.inr (Or.inr ?_)
    rw [Char.ofNat, dif_neg hn]
    rfl

private theorem isImage_shiftedRun {r : ShiftedRun} (h : r ∈ shiftedRuns) {m n : Nat}
    (hf : r.fold? m = some n) : IsImage (Char.ofNat n) := by
  rw [ShiftedRun.fold?] at hf
  split at hf
  · next hm =>
    obtain rfl := Option.some.inj hf
    rcases shiftedRun_range h with hi | ⟨he, hi⟩
    · exact isImage_ofNat (by omega)
    · have hz : m - r.first = 0 := by omega
      rw [hz, Nat.add_zero]
      exact hi
  · exact absurd hf nofun

/-- Small letters are the only foldings within ASCII that differ from what is folded. -/
private theorem toLower_eq_or (c : Char) : c.toLower = c ∨ IsImage c.toLower := by
  by_cases h : c.toNat < 0x80
  · have hall : ∀ n < 0x80, (Char.ofNat n).toLower = Char.ofNat n ∨
        IsImage (Char.ofNat n).toLower := by
      decide +kernel
    have hc := hall c.toNat h
    rwa [Char.ofNat_toNat] at hc
  · refine Or.inl (dif_neg fun hu => ?_)
    have hle : c.toNat ≤ 90 := hu.2
    omega

/-- The folding of no other character holds a mark. -/
theorem IsMark.eq_of_mem_foldChar {x c : Char} (hx : IsMark x) (h : x ∈ foldChar c) : c = x := by
  have hno := hx.not_isImage
  rw [foldChar] at h
  split at h
  · obtain rfl := List.mem_singleton.mp h
    exact ((toLower_eq_or c).resolve_right hno).symm
  · split at h
    · next image hi =>
      obtain ⟨n, hn, rfl⟩ := List.mem_map.mp h
      obtain ⟨l, r, hs, -⟩ := List.lookup_eq_some_iff.mp hi
      exact absurd (isImage_longFolding (e := (c.toNat, image)) (hs ▸ by simp) n hn) hno
    · cases hf : shiftedRuns.findSome? (·.fold? c.toNat) with
      | none =>
        rw [hf] at h
        exact (List.mem_singleton.mp h).symm
      | some n =>
        rw [hf] at h
        obtain rfl := List.mem_singleton.mp h
        obtain ⟨r, hr, hn⟩ := List.exists_of_findSome?_eq_some hf
        exact absurd (isImage_shiftedRun hr hn) hno

/-- A mark folds to itself. -/
theorem IsMark.foldChar_eq {x : Char} (hx : IsMark x) : foldChar x = [x] := by
  have hlower : x.toLower = x := by
    refine dif_neg fun hu => ?_
    have hup : x.isUpper = true := decide_eq_true hu
    have ha : (x.isUpper || x.isLower) = false := hx.2.1
    rw [hup, Bool.true_or] at ha
    exact Bool.noConfusion ha
  rw [foldChar, if_pos hx.1, hlower]

/-- A text of marks folds to itself. -/
theorem fold_of_marks {l : List Char} (hl : ∀ x ∈ l, IsMark x) : fold l = l := by
  induction l with
  | nil => rfl
  | cons x l ih =>
    obtain ⟨hx, hl⟩ := List.forall_mem_cons.mp hl
    rw [fold_cons, hx.foldChar_eq, ih hl]
    rfl

/-- A folding starts with a mark only where the text does. -/
theorem IsMark.exists_cons_of_fold_eq {x : Char} (hx : IsMark x) {s l : List Char}
    (h : fold s = x :: l) : ∃ r, s = x :: r ∧ fold r = l := by
  cases s with
  | nil => exact absurd h nofun
  | cons c r =>
    obtain ⟨y, ys, hy⟩ := List.exists_cons_of_ne_nil (foldChar_ne_nil c)
    rw [fold_cons, hy, List.cons_append, List.cons.injEq] at h
    obtain rfl := hx.eq_of_mem_foldChar (c := c) (by simp [hy, h.1])
    rw [hx.foldChar_eq, List.cons.injEq] at hy
    rw [← hy.2, List.nil_append] at h
    exact ⟨r, rfl, h.2⟩

/-- Only a text of marks itself folds to it. -/
theorem eq_of_fold_eq_marks {l s : List Char} (hl : ∀ x ∈ l, IsMark x) (h : fold s = fold l) :
    s = l := by
  rw [fold_of_marks hl] at h
  induction l generalizing s with
  | nil => exact fold_eq_nil_iff.mp h
  | cons x l ih =>
    obtain ⟨hx, hm⟩ := List.forall_mem_cons.mp hl
    obtain ⟨r, rfl, hr⟩ := hx.exists_cons_of_fold_eq h
    rw [ih hm hr]

/-- A mark stands in a folding only where it stands in the text. -/
theorem IsMark.mem_fold_iff {x : Char} (hx : IsMark x) {t : List Char} : x ∈ fold t ↔ x ∈ t := by
  constructor
  · intro h
    obtain ⟨c, hc, hm⟩ := List.mem_flatMap.mp h
    exact hx.eq_of_mem_foldChar hm ▸ hc
  · intro h
    exact List.mem_flatMap.mpr ⟨x, h, by simp [hx.foldChar_eq]⟩

/-- Marks fold singly. -/
theorem IsMark.foldsSingly {x : Char} (hx : IsMark x) : FoldsSingly x := by
  rw [FoldsSingly, hx.foldChar_eq]
  rfl

/-- Blanks are marks. -/
theorem isMark_of_mem_blanks {c : Char} (h : c ∈ CharSet.blanks) : IsMark c := by
  have hall : ∀ c ∈ " \t\r\n".toList, IsMark c := forall_mem_of_all (by decide)
  exact hall c (CharSet.mem_ofList.mp h)

end DependencyClause.Text
