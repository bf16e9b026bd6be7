import DependencyClause.Proofs.Text.Folding
import DependencyClause.Text.Occurrence

/-!
# What can stand between quotation marks

The mark that ends a quotation is sought in the folded text, and its offset there is taken for an
offset in the text itself. A text is `Quotable` if the two agree behind it, whatever follows. A text
without a mark is quotable exactly if its folding keeps its length; some quotable texts hold marks.
-/

namespace DependencyClause.Text

/-- The first occurrence of a character is the first place that holds it. -/
theorem occurrence?_singleton (x : Char) (t : List Char) :
    occurrence? [x] t = t.findIdx? (· == x) := by
  induction t with
  | nil => rfl
  | cons c t ih =>
    rw [occurrence?, List.findIdx?_cons, ih]
    by_cases h : c = x
    · subst h
      simp
    · have hp : [x].isPrefixOf (c :: t) = false := by
        simp [List.isPrefixOf, Ne.symm h]
      simp [hp, h]

theorem isMark_quote : IsMark '"' := by decide

theorem forall_isMark_quote : ∀ x ∈ ['"'], IsMark x := List.forall_mem_singleton.mpr isMark_quote

/-- Before a mark, the folding of the text shows its first mark at the length of the text. -/
def Quotable (t : List Char) : Prop := occurrence? ['"'] (fold t ++ ['"']) = some t.length

instance (t : List Char) : Decidable (Quotable t) := inferInstanceAs (Decidable (_ = _))

private theorem occurrence?_quote (s r : List Char) :
    occurrence? ['"'] (s ++ '"' :: r) = (s.findIdx? (· == '"')).or (some s.length) := by
  rw [occurrence?_singleton, List.findIdx?_append, List.findIdx?_cons]
  simp

/-- Whether a text is quotable does not depend on what follows the mark behind it. -/
theorem quotable_iff_occurrence {t : List Char} (r : List Char) :
    Quotable t ↔ occurrence? ['"'] (fold (t ++ '"' :: r)) = some t.length := by
  rw [Quotable, fold_append, fold_cons, isMark_quote.foldChar_eq, List.cons_append,
    List.nil_append, occurrence?_quote, occurrence?_quote]

/-- Without a mark of its own, a text is quotable exactly if it folds singly. -/
theorem quotable_iff_foldsSingly {t : List Char} (h : '"' ∉ t) :
    Quotable t ↔ ∀ c ∈ t, FoldsSingly c := by
  have hf : (fold t).findIdx? (· == '"') = none := by
    rw [List.findIdx?_eq_none_iff]
    intro x hx
    have hne : x ≠ '"' := fun he => h (isMark_quote.mem_fold_iff.mp (he ▸ hx))
    simpa using hne
  rw [Quotable, occurrence?_quote, hf, Option.none_or, Option.some.injEq, length_fold_eq_iff]

/-- Where every character folds singly, a text is quotable exactly if it holds no mark. -/
theorem quotable_iff_not_mem {t : List Char} (h : ∀ c ∈ t, FoldsSingly c) :
    Quotable t ↔ '"' ∉ t := by
  refine ⟨fun hq hm => ?_, fun hm => (quotable_iff_foldsSingly hm).mpr h⟩
  rw [Quotable, occurrence?_quote] at hq
  cases hi : (fold t).findIdx? (· == '"') with
  | none =>
    rw [List.findIdx?_eq_none_iff] at hi
    have hx := hi '"' (isMark_quote.mem_fold_iff.mpr hm)
    exact absurd hx (by simp)
  | some i =>
    have hlt := (List.findIdx?_eq_some_iff_findIdx_eq.mp hi).1
    rw [length_fold h] at hlt
    rw [hi, Option.some_or, Option.some.injEq] at hq
    omega

/-- A letter that folds to two makes room for a mark within the quotation. -/
example : Quotable "ß\"".toList ∧ ¬ Quotable "ß".toList := by decide

end DependencyClause.Text
