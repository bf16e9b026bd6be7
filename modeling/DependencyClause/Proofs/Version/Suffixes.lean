import DependencyClause.Proofs.Version.Tags

/-!
# The suffixes of tags

A suffix is cut into a prerelease and a build, strictly or leniently, and either way into texts that
identifiers are read from. A prerelease and a build that are put together are found again in the
suffix, and a suffix that is cut strictly is put together from what it is cut into. So the normal
form of a tag is a tag, and the tag is read leniently part by part.
-/

namespace DependencyClause

open Text

namespace SemanticVersion

/-- The words of a text make up the text. -/
theorem marked_words (mark : Char) (t : List Char) : marked mark (words t) = Tag.behind mark t := by
  rw [words, Tag.behind]
  split
  · rfl
  · obtain ⟨w, ws, hws⟩ := List.exists_cons_of_ne_nil (List.splitOn_ne_nil '.' t)
    rw [hws, marked, ← hws, dotted, List.intercalate_splitOn]

/-- Words behind their mark are the text that they are joined to behind it. -/
theorem marked_eq_behind {mark : Char} {ps : List (List Char)} (h : ∀ p ∈ ps, IsWord p) :
    marked mark ps = Tag.behind mark (dotted ps) := by
  rw [← marked_words, words_dotted h]

end SemanticVersion

namespace Tag

variable {tag : Tag} {t p b : List Char}

/-- Up to a plus sign there is none. -/
private theorem isDottedText_cutAtPlus (h : ∀ x ∈ t, x ∈ CharSet.versionCharacters) :
    IsDottedText (cutAtPlus t).1 := by
  intro x hx
  have hne := List.all_eq_true.mp List.all_takeWhile x hx
  exact ⟨h x (List.takeWhile_subset _ hx), by simpa using hne⟩

private theorem cutAtPlus_snd_subset (t : List Char) : (cutAtPlus t).2 ⊆ t := fun _ hx =>
  List.dropWhile_subset _ (List.mem_of_mem_tail hx)

/-- A well-formed suffix is cut into texts that identifiers are read from. -/
theorem isDottedText_of_strictParts? {s : List Char} (hs : isSuffix s = true)
    (h : strictParts? s = some (p, b)) : IsDottedText p ∧ IsDottedText b := by
  cases s with
  | nil =>
    obtain ⟨rfl, rfl⟩ := Prod.mk.inj (Option.some.inj h)
    exact ⟨List.forall_mem_nil _, List.forall_mem_nil _⟩
  | cons y t =>
    have ht := (List.forall_mem_cons.mp (mem_versionCharacters_of_isSuffix hs)).2
    rcases eq_or_eq_of_isSuffix hs with rfl | rfl
    · rw [strictParts?_hyphen] at h
      split at h
      · exact absurd h nofun
      · next hno =>
        obtain ⟨rfl, rfl⟩ := Prod.mk.inj (Option.some.inj h)
        refine ⟨isDottedText_cutAtPlus ht, fun x hx => ⟨ht x (cutAtPlus_snd_subset t hx), ?_⟩⟩
        rintro rfl
        exact hno (Or.inr (Or.inl hx))
    · rw [strictParts?_plus] at h
      split at h
      · exact absurd h nofun
      · next hno =>
        obtain ⟨rfl, rfl⟩ := Prod.mk.inj (Option.some.inj h)
        refine ⟨List.forall_mem_nil _, fun x hx => ⟨ht x hx, ?_⟩⟩
        rintro rfl
        exact hno (Or.inr hx)

/-- Any suffix of version characters is cut into texts that identifiers are read from. -/
theorem isDottedText_lenientParts {s : List Char} (h : ∀ x ∈ s, x ∈ CharSet.versionCharacters) :
    IsDottedText (lenientParts s).1 ∧ IsDottedText (lenientParts s).2 := by
  have hbuild : ∀ {b : List Char}, b ⊆ s →
      IsDottedText (b.map stopForPlus) := by
    intro b hb x hx
    obtain ⟨c, hc, rfl⟩ := List.mem_map.mp hx
    by_cases hp : c = '+'
    · rw [stopForPlus, if_pos hp]
      decide
    · rw [stopForPlus, if_neg hp]
      exact ⟨h c (hb hc), hp⟩
  by_cases hs : s.head? = some '-'
  · obtain ⟨t, rfl⟩ := List.head?_eq_some_iff.mp hs
    have ht : ∀ x ∈ t, x ∈ CharSet.versionCharacters := fun x hx => h x (List.mem_cons_of_mem _ hx)
    have hb : (cutAtPlus t).2 ⊆ '-' :: t :=
      fun x hx => List.mem_cons_of_mem _ (cutAtPlus_snd_subset t hx)
    rw [lenientParts_hyphen]
    exact ⟨isDottedText_cutAtPlus ht, hbuild hb⟩
  · rw [lenientParts_of_head?_ne hs]
    exact ⟨List.forall_mem_nil _, hbuild fun x hx => List.mem_of_mem_tail hx⟩

/-- What follows the first three numerals holds version characters only. -/
theorem mem_versionCharacters_of_mem_rest {x : Char} (hx : x ∈ tag.rest) :
    x ∈ CharSet.versionCharacters := by
  obtain ⟨c, -, rfl⟩ := List.mem_map.mp hx
  by_cases hc : c ∈ CharSet.versionCharacters
  · rwa [hyphenate, if_pos hc]
  · rw [hyphenate, if_neg hc]
    decide

theorem isDottedText_lenientParts_rest (tag : Tag) :
    IsDottedText (lenientParts tag.rest).1 ∧ IsDottedText (lenientParts tag.rest).2 :=
  isDottedText_lenientParts fun _ hx => mem_versionCharacters_of_mem_rest hx

/-- Before a plus sign a text that holds none is cut off. -/
private theorem cutAtPlus_append {s : List Char} (hp : IsDottedText p)
    (hs : ∀ x ∈ s.head?, x = '+') : cutAtPlus (p ++ s) = (p, s.tail) := by
  have hpos : ∀ x ∈ p, (x != '+') = true := fun x hx => by simpa using (hp x hx).2
  have hhead : s.takeWhile (· != '+') = [] ∧ s.dropWhile (· != '+') = s := by
    cases s with
    | nil => exact ⟨rfl, rfl⟩
    | cons y t =>
      obtain rfl := hs y rfl
      exact ⟨rfl, rfl⟩
  rw [cutAtPlus, List.takeWhile_append_of_pos hpos, List.dropWhile_append_of_pos hpos, hhead.1,
    hhead.2, List.append_nil]

theorem behind_of_ne_nil {mark : Char} (h : t ≠ []) : behind mark t = mark :: t := if_neg h

/-- A suffix that is put together from a prerelease and a build is cut into these. -/
theorem strictParts?_behind (hp : IsDottedText p) (hb : IsDottedText b) :
    strictParts? (behind '-' p ++ behind '+' b) = some (p, b) := by
  have hplus : '+' ∉ b := fun hm => (hb '+' hm).2 rfl
  by_cases hpnil : p = []
  · subst hpnil
    by_cases hbnil : b = []
    · subst hbnil
      rfl
    · rw [behind_of_ne_nil hbnil]
      change strictParts? ('+' :: b) = _
      rw [strictParts?_plus, if_neg]
      rintro (he | he)
      · exact hbnil he
      · exact hplus he
  · have hcut : cutAtPlus (p ++ behind '+' b) = (p, b) := by
      by_cases hbnil : b = []
      · subst hbnil
        exact cutAtPlus_append hp nofun
      · rw [behind_of_ne_nil hbnil]
        exact cutAtPlus_append hp fun x hx => (Option.some.inj hx).symm
    rw [behind_of_ne_nil hpnil, List.cons_append, strictParts?_hyphen, hcut, if_neg]
    rintro (he | he | ⟨he, hm⟩)
    · exact hpnil he
    · exact hplus he
    · subst he
      rw [behind, if_pos rfl, List.append_nil] at hm
      exact (hp '+' hm).2 rfl

theorem isSuffix_behind (hp : IsDottedText p) (hb : IsDottedText b) :
    isSuffix (behind '-' p ++ behind '+' b) = true := by
  have hbuild : ∀ x ∈ behind '+' b, x ∈ CharSet.versionCharacters := by
    intro x hx
    rw [behind] at hx
    split at hx
    · exact absurd hx List.not_mem_nil
    · rcases List.mem_cons.mp hx with rfl | hx
      · decide
      · exact (hb x hx).1
  by_cases hpnil : p = []
  · subst hpnil
    by_cases hbnil : b = []
    · subst hbnil
      rfl
    · rw [behind_of_ne_nil hbnil] at hbuild ⊢
      refine Bool.and_eq_true_iff.mpr ⟨rfl, List.all_eq_true.mpr fun x hx => ?_⟩
      exact decide_eq_true (hbuild x (List.mem_cons_of_mem _ hx))
  · rw [behind_of_ne_nil hpnil]
    refine Bool.and_eq_true_iff.mpr ⟨rfl, List.all_eq_true.mpr fun x hx => ?_⟩
    rcases List.mem_append.mp hx with hx | hx
    · exact decide_eq_true (hp x hx).1
    · exact decide_eq_true (hbuild x hx)

/-- The normal form of a tag is a tag. -/
theorem WellFormed.normalized (h : tag.WellFormed) : tag.normalized.WellFormed where
  ne_nil := List.cons_ne_nil _ _
  numeral := by
    have hnumeral : ∀ i, tag.numeral i ≠ [] ∧ ∀ c ∈ tag.numeral i, isDigit c = true := by
      intro i
      refine ⟨stripZeros_ne_nil _, fun c hc => ?_⟩
      rcases mem_of_mem_stripZeros hc with rfl | hc
      · decide
      · rw [List.getD_eq_getElem?_getD] at hc
        cases hi : tag.numerals[i]? with
        | none => simp [hi] at hc
        | some n =>
          rw [hi, Option.getD_some] at hc
          exact (h.numeral n (List.mem_of_getElem? hi)).2 c hc
    intro n hn
    simp only [Tag.normalized, List.mem_cons, List.not_mem_nil, or_false] at hn
    rcases hn with rfl | rfl | rfl
    · exact hnumeral 0
    · exact hnumeral 1
    · exact hnumeral 2
  suffix :=
    isSuffix_behind (isDottedText_lenientParts_rest tag).1 (isDottedText_lenientParts_rest tag).2

/-- Leniently a tag is read part by part, as its normal form is put together. -/
theorem lenient?_eq_ofParts? (tag : Tag) :
    tag.lenient? = SemanticVersion.ofParts? (tag.numeral 0) (tag.numeral 1) (tag.numeral 2)
      (lenientParts tag.rest).1 (lenientParts tag.rest).2 := by
  obtain ⟨hp, hb⟩ := isDottedText_lenientParts_rest tag
  rw [lenient?, Tag.normalized, strict?, strictParts?_behind hp hb]
  rfl

/-- What a text is cut into makes up the text, unless only the plus sign is behind the cut. -/
theorem eq_append_behind_of_cutAtPlus (h : cutAtPlus t = (p, b))
    (hplus : b = [] → '+' ∉ t) : t = p ++ behind '+' b := by
  obtain ⟨rfl, rfl⟩ := Prod.mk.inj h
  have happend := List.takeWhile_append_dropWhile (p := (· != '+')) (l := t)
  cases hd : t.dropWhile (· != '+') with
  | nil =>
    rw [hd] at happend
    exact happend.symm
  | cons y u =>
    have hy : y = '+' := by
      have hhead := List.head?_dropWhile_not (· != '+') t
      simpa [hd] using hhead
    subst hy
    have hu : u ≠ [] := by
      rintro rfl
      exact hplus (by rw [hd]; rfl) (List.dropWhile_subset _ (hd ▸ List.mem_cons_self))
    rw [hd] at happend
    rw [List.tail_cons, behind_of_ne_nil hu]
    exact happend.symm

/-- A well-formed suffix is put together from the prerelease and the build that it is cut into. -/
theorem eq_behind_of_strictParts? (hs : isSuffix s = true) (h : strictParts? s = some (p, b)) :
    s = behind '-' p ++ behind '+' b := by
  cases s with
  | nil =>
    obtain ⟨rfl, rfl⟩ := Prod.mk.inj (Option.some.inj h)
    rfl
  | cons y t =>
    rcases eq_or_eq_of_isSuffix hs with rfl | rfl
    · rw [strictParts?_hyphen] at h
      split at h
      · exact absurd h nofun
      · next hno =>
        have hcut := Option.some.inj h
        rw [hcut] at hno
        rw [behind_of_ne_nil fun he => hno (Or.inl he), List.cons_append,
          ← eq_append_behind_of_cutAtPlus hcut fun he hm => hno (Or.inr (Or.inr ⟨he, hm⟩))]
    · rw [strictParts?_plus] at h
      split at h
      · exact absurd h nofun
      · next hno =>
        obtain ⟨rfl, rfl⟩ := Prod.mk.inj (Option.some.inj h)
        rw [behind_of_ne_nil fun he => hno (Or.inl he)]
        rfl

end Tag

end DependencyClause
