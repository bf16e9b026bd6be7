import DependencyClause.Proofs.Version.Suffixes

/-!
# Spellings of one version

Where a tag can be read strictly, reading it leniently gives the same version, so the lenient
reading alone says what a tag names. It does not tell apart tags that differ in spare zeros, in
numbers that are left out or in whether a full stop or a plus sign leads from the third number to
further ones.
-/

namespace DependencyClause

open Text

/-- A number is read without its spare zeros as well. -/
theorem SemanticVersion.readNumber?_stripZeros {t : List Char} {n : Nat}
    (h : readNumber? t = some n) : readNumber? (stripZeros t) = some n := by
  obtain ⟨ht, rfl⟩ := readNumber?_eq_some_iff.mp h
  have hle := Nat.le_trans (List.dropWhile_sublist (· == '0')).length_le ht.length_le
  exact readNumber?_eq_some_iff.mpr ⟨isNumber_stripZeros_iff.mpr hle, numeralValue_stripZeros t⟩

namespace Tag

open SemanticVersion

variable {tag : Tag}

private theorem map_eq_self {f : Char → Char} {t : List Char} (h : ∀ c ∈ t, f c = c) :
    t.map f = t :=
  (List.map_congr_left h).trans (List.map_id t)

theorem hyphenate_of_mem {c : Char} (h : c ∈ CharSet.versionCharacters) : hyphenate c = c :=
  if_pos h

@[simp] theorem hyphenate_hyphenate (c : Char) : hyphenate (hyphenate c) = hyphenate c := by
  by_cases h : c ∈ CharSet.versionCharacters
  · rw [hyphenate_of_mem h, hyphenate_of_mem h]
  · have hc : hyphenate c = '-' := if_neg h
    rw [hc]
    decide

theorem rest_eq (tag : Tag) :
    tag.rest = ((tag.numerals.drop 3).flatMap ('.' :: ·) ++ tag.suffix).map hyphenate := rfl

/-- Of a tag with up to three numerals the suffix is left. -/
theorem rest_of_length_le (h : isSuffix tag.suffix = true) (hlength : tag.numerals.length ≤ 3) :
    tag.rest = tag.suffix := by
  rw [rest_eq, List.drop_eq_nil_of_le hlength, List.flatMap_nil, List.nil_append]
  exact map_eq_self fun c hc => hyphenate_of_mem (mem_versionCharacters_of_isSuffix h c hc)

/-- A well-formed suffix is cut in the same way leniently. -/
theorem lenientParts_of_strictParts? {u : List Char} {parts : List Char × List Char}
    (hu : isSuffix u = true) (h : strictParts? u = some parts) : lenientParts u = parts := by
  have hplus : ∀ {b : List Char}, '+' ∉ b → b.map stopForPlus = b :=
    fun hb => map_eq_self fun c hc => if_neg (ne_of_mem_of_not_mem hc hb)
  cases u with
  | nil => exact Option.some.inj h
  | cons y u =>
    rcases eq_or_eq_of_isSuffix hu with rfl | rfl
    · rw [strictParts?_hyphen] at h
      split at h
      · exact absurd h nofun
      · next hno =>
        rw [lenientParts_hyphen, hplus fun hm => hno (Or.inr (Or.inl hm))]
        exact Option.some.inj h
    · rw [strictParts?_plus] at h
      split at h
      · exact absurd h nofun
      · next hno =>
        rw [lenientParts_of_head?_ne (by simp), List.tail_cons, hplus fun hm => hno (Or.inr hm)]
        exact Option.some.inj h

/-- A tag that can be read strictly is read leniently with the same result. -/
theorem lenient?_of_strict? {v : SemanticVersion} (h : isSuffix tag.suffix = true)
    (hs : tag.strict? = some v) : tag.lenient? = some v := by
  obtain ⟨numerals, suffix⟩ := tag
  rw [strict?] at hs
  split at hs
  · next a b c heq =>
    change numerals = [a, b, c] at heq
    subst heq
    obtain ⟨parts, hparts, hs⟩ := Option.bind_eq_some_iff.mp hs
    obtain ⟨major, ha, hs⟩ := Option.bind_eq_some_iff.mp hs
    obtain ⟨minor, hb, hs⟩ := Option.bind_eq_some_iff.mp hs
    obtain ⟨patch, hc, hs⟩ := Option.bind_eq_some_iff.mp hs
    have hrest : Tag.rest ⟨[a, b, c], suffix⟩ = suffix := rest_of_length_le h (Nat.le_refl 3)
    rw [lenient?_eq_ofParts?, hrest, lenientParts_of_strictParts? h hparts]
    change ofParts? (stripZeros a) (stripZeros b) (stripZeros c) _ _ = _
    rw [ofParts?, readNumber?_stripZeros ha, readNumber?_stripZeros hb, readNumber?_stripZeros hc]
    exact hs
  · cases hs

variable {s t : Tag}

/-- Two tags differ at most in how they spell a version. -/
inductive Respelled : Tag → Tag → Prop
  /-- A tag is spelled like itself. -/
  | refl (tag : Tag) : Respelled tag tag
  /-- One of the first three numerals may have a zero more in front. -/
  | zero (front : List (List Char)) (n : List Char) (back : List (List Char)) (suffix : List Char)
      (hfront : front.length < 3) :
      Respelled ⟨front ++ ('0' :: n) :: back, suffix⟩ ⟨front ++ n :: back, suffix⟩
  /-- One of the first three numerals may be left out where it is zero and none follows. -/
  | missing (front : List (List Char)) (suffix : List Char) (hfront : front.length < 3) :
      Respelled ⟨front ++ [['0']], suffix⟩ ⟨front, suffix⟩
  /-- Numerals behind the third belong to the build. -/
  | extra (a b c n : List Char) (back : List (List Char)) (suffix : List Char) :
      Respelled ⟨a :: b :: c :: n :: back, suffix⟩
        ⟨[a, b, c], '+' :: (dotted (n :: back) ++ suffix).map hyphenate⟩
  /-- The order of the two tags does not matter. -/
  | symm {s t : Tag} : Respelled s t → Respelled t s
  /-- Differences in spelling add up. -/
  | trans {s t u : Tag} : Respelled s t → Respelled t u → Respelled s u

/-- The lenient reading looks at three numerals, whatever spare zeros they have, and at the parts
behind them. -/
theorem lenient?_congr (hn : ∀ i < 3, s.numeral i = t.numeral i)
    (hrest : lenientParts s.rest = lenientParts t.rest) : s.lenient? = t.lenient? := by
  rw [lenient?_eq_ofParts?, lenient?_eq_ofParts?, hn 0 (by decide), hn 1 (by decide),
    hn 2 (by decide), hrest]

/-- A numeral may change to one that is the same without its spare zeros. -/
private theorem numeral_append_cons {front back : List (List Char)} {n m suffix : List Char}
    (h : stripZeros n = stripZeros m) (i : Nat) :
    numeral ⟨front ++ n :: back, suffix⟩ i = numeral ⟨front ++ m :: back, suffix⟩ i := by
  simp only [numeral, List.getD_eq_getElem?_getD]
  rcases Nat.lt_trichotomy i front.length with hi | rfl | hi
  · rw [List.getElem?_append_left hi, List.getElem?_append_left hi]
  · simpa using h
  · obtain ⟨k, rfl⟩ := Nat.exists_eq_add_of_lt hi
    simp [List.getElem?_append_right, Nat.add_assoc]

/-- The numeral behind the last one may as well be zero. -/
private theorem numeral_append_zero {front : List (List Char)} {suffix : List Char} (i : Nat) :
    numeral ⟨front ++ [['0']], suffix⟩ i = numeral ⟨front, suffix⟩ i := by
  simp only [numeral, List.getD_eq_getElem?_getD]
  rcases Nat.lt_trichotomy i front.length with hi | rfl | hi
  · rw [List.getElem?_append_left hi]
  · rw [List.getElem?_concat_length, List.getElem?_eq_none (Nat.le_refl _)]
    rfl
  · have hi' : (front ++ [['0']]).length ≤ i := by
      rw [List.length_append]
      exact hi
    rw [List.getElem?_eq_none hi', List.getElem?_eq_none (Nat.le_of_lt hi)]

/-- Numerals behind the third are led in by full stops. -/
theorem flatMap_dot (n : List Char) (ns : List (List Char)) :
    (n :: ns).flatMap ('.' :: ·) = '.' :: dotted (n :: ns) := by
  induction ns generalizing n with
  | nil => simp [dotted]
  | cons m ns ih => rw [List.flatMap_cons, ih, dotted_cons_cons, List.cons_append]

/-- However a version is spelled, the tag is read alike. -/
theorem Respelled.lenient?_eq (h : s.Respelled t) : s.lenient? = t.lenient? := by
  induction h with
  | refl => rfl
  | zero front n back suffix hfront =>
    have hstrip : stripZeros ('0' :: n) = stripZeros n := rfl
    refine lenient?_congr (fun i _ => numeral_append_cons hstrip i) (congrArg lenientParts ?_)
    obtain ⟨k, hk⟩ := Nat.exists_eq_add_of_lt hfront
    have hdrop : 3 - front.length = k + 1 := by omega
    simp only [rest_eq, List.drop_append, hdrop, List.drop_succ_cons]
  | missing front suffix hfront =>
    refine lenient?_congr (fun i _ => numeral_append_zero i) (congrArg lenientParts ?_)
    have hlength : (front ++ [['0']]).length ≤ 3 := by
      rw [List.length_append]
      exact hfront
    rw [rest_eq, rest_eq, List.drop_eq_nil_of_le hlength,
      List.drop_eq_nil_of_le (Nat.le_of_lt hfront)]
  | extra a b c n back suffix =>
    let parts := (dotted (n :: back) ++ suffix).map hyphenate
    have hfirst : rest ⟨a :: b :: c :: n :: back, suffix⟩ = '.' :: parts := by
      change ((n :: back).flatMap ('.' :: ·) ++ suffix).map hyphenate = '.' :: parts
      rw [flatMap_dot, List.cons_append, List.map_cons]
      rfl
    have hsecond : rest ⟨[a, b, c], '+' :: parts⟩ = '+' :: parts := by
      change hyphenate '+' :: parts.map hyphenate = '+' :: parts
      rw [List.map_map]
      exact congrArg ('+' :: ·) (List.map_congr_left fun c _ => hyphenate_hyphenate c)
    refine lenient?_congr (fun i hi => ?_) ?_
    · match i, hi with
      | 0, _ => rfl
      | 1, _ => rfl
      | 2, _ => rfl
    · rw [hfirst, hsecond, lenientParts_of_head?_ne (by simp), lenientParts_of_head?_ne (by simp)]
      rfl
  | symm _ ih => exact ih.symm
  | trans _ _ ih₁ ih₂ => exact ih₁.trans ih₂

end Tag

end DependencyClause
