import DependencyClause.Text.CaseFold.Table

/-!
# Letter case

`fold` replaces every character by its full case folding, which may be several characters. It works
character by character, so it respects concatenation (`fold_append`); it can change the length of a
text, and keeps it where every character folds to a single one (`length_fold`).

`upperCase` is for comparisons with names in ASCII capitals. Beyond ASCII it knows only the
characters whose capitals are ASCII letters, and leaves every other one as it is.
-/

namespace DependencyClause.Text

/-- The full case folding of one character. -/
def foldChar (c : Char) : List Char :=
  if c.toNat < 0x80 then [c.toLower]
  else match longFoldings.lookup c.toNat with
    | some image => image.map Char.ofNat
    | none => [((shiftedRuns.findSome? (·.fold? c.toNat)).map Char.ofNat).getD c]

/-- The full case folding of a text. -/
def fold (t : List Char) : List Char := t.flatMap foldChar

/-- The character folds to a single character. -/
def FoldsSingly (c : Char) : Prop := (foldChar c).length = 1

instance (c : Char) : Decidable (FoldsSingly c) := inferInstanceAs (Decidable (_ = _))

@[simp] theorem fold_nil : fold [] = [] := rfl

@[simp] theorem fold_cons (c : Char) (t : List Char) : fold (c :: t) = foldChar c ++ fold t := rfl

@[simp] theorem fold_append (s t : List Char) : fold (s ++ t) = fold s ++ fold t :=
  List.flatMap_append

/-- No character vanishes when it is folded. -/
theorem foldChar_ne_nil (c : Char) : foldChar c ≠ [] := by
  have h : ∀ e ∈ longFoldings, e.2 ≠ [] := by decide +kernel
  unfold foldChar
  split
  · exact List.cons_ne_nil _ _
  · split
    · next image hi =>
      intro he
      rw [List.map_eq_nil_iff] at he
      obtain ⟨_, _, hs, _⟩ := List.lookup_eq_some_iff.1 hi
      exact h (c.toNat, image) (hs ▸ by simp) he
    · exact List.cons_ne_nil _ _

@[simp] theorem fold_eq_nil_iff {t : List Char} : fold t = [] ↔ t = [] := by
  cases t with
  | nil => simp
  | cons c t => simp [foldChar_ne_nil]

theorem length_fold {t : List Char} (h : ∀ c ∈ t, FoldsSingly c) : (fold t).length = t.length := by
  induction t with
  | nil => rfl
  | cons c t ih =>
    have hc : (foldChar c).length = 1 := h c (by simp)
    simp only [fold_cons, List.length_append, List.length_cons, hc,
      ih fun d hd => h d (List.mem_cons_of_mem _ hd)]
    omega

/-- The characters beyond ASCII whose capitals are ASCII letters. -/
def asciiCapitals : List (Char × String) :=
  [('ß', "SS"), ('ı', "I"), ('ſ', "S"), ('ﬀ', "FF"), ('ﬁ', "FI"), ('ﬂ', "FL"), ('ﬃ', "FFI"),
   ('ﬄ', "FFL"), ('ﬅ', "ST"), ('ﬆ', "ST")]

/-- The capitals of one character, if these are ASCII letters; any other character stands. -/
def capitals (c : Char) : List Char :=
  match asciiCapitals.lookup c with
  | some s => s.toList
  | none => [c.toUpper]

/-- The text in capitals, as far as these are ASCII letters. This is exact only for a comparison
with an ASCII text: `é` stays `é`, which no such text holds, and neither does its capital. -/
def upperCase (t : List Char) : List Char := t.flatMap capitals

end DependencyClause.Text
