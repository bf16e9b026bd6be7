import DependencyClause.Proofs.Version.Library

/-!
# What a tag stands for

A tag stands for the version whose numbers are the values of its first three numerals. With up to
three numerals the prerelease and the build are cut from the suffix at its first plus sign; with
more there is no prerelease, and the build is all that follows the third numeral. A text names the
version that the tag it spells stands for, and it names none exactly if it spells no tag or a tag
with an empty identifier, a spare zero in a prerelease, or a number that is too long.
-/

namespace DependencyClause

open Text

/-- The numeral is too long for a number, zeros in front not counted. -/
def SemanticVersion.LongNumber (n : List Char) : Prop := maxDigits < (n.dropWhile (· == '0')).length

instance (n : List Char) : Decidable (SemanticVersion.LongNumber n) :=
  inferInstanceAs (Decidable (_ < _))

namespace Tag

open SemanticVersion

/-- The prerelease in a tag of up to three numerals: what stands between a hyphen that opens the
suffix and the first plus sign. -/
def prereleaseText (tag : Tag) : List Char :=
  if tag.numerals.length ≤ 3 ∧ tag.suffix.head? = some '-' then
    tag.suffix.tail.takeWhile (· != '+')
  else []

/-- A hyphen for a digit that is not an ASCII digit, and a full stop for a plus sign. -/
def buildCharacter (c : Char) : Char :=
  if isDigit c ∧ ¬ c.isDigit then '-' else stopForPlus c

/-- The build in a tag: what follows the first plus sign or, in a tag of more than three numerals,
what follows the third numeral. -/
def buildText (tag : Tag) : List Char :=
  if tag.numerals.length ≤ 3 then (tag.suffix.dropWhile (· != '+')).tail.map stopForPlus
  else (dotted (tag.numerals.drop 3) ++ tag.suffix).map buildCharacter

/-- The version that a tag stands for. -/
def decoded (tag : Tag) : SemanticVersion where
  major := numeralValue (tag.numerals.getD 0 [])
  minor := numeralValue (tag.numerals.getD 1 [])
  patch := numeralValue (tag.numerals.getD 2 [])
  prerelease := (words tag.prereleaseText).map Identifier.ofWord
  build := words tag.buildText

/-- Why a tag stands for no version. -/
inductive Undecodable (tag : Tag) : Prop where
  /-- An identifier is empty. -/
  | empty (h : [] ∈ words tag.prereleaseText ++ words tag.buildText)
  /-- A number in the prerelease has a spare zero. -/
  | spareZero {w : List Char} (hw : w ∈ words tag.prereleaseText)
      (hd : w.all Char.isDigit = true) (h : hasSpareZero w = true)
  /-- One of the three numbers is too long. -/
  | longNumber {n : List Char} (hn : n ∈ tag.numerals.take 3) (h : LongNumber n)
  /-- A number among the identifiers is too long. -/
  | longIdentifier {w : List Char}
      (hw : w ∈ words tag.prereleaseText ++ words tag.buildText)
      (hd : w.all Char.isDigit = true) (h : maxDigits < w.length)

variable {tag : Tag}

/-- Of the characters that a version may hold only ASCII digits are digits. -/
private theorem asciiDigit_of_mem {c : Char} (h : c ∈ CharSet.versionCharacters)
    (hd : isDigit c = true) : c.isDigit = true := by
  have hall : ∀ c ∈ CharSet.versionCharacters, isDigit c = true → c.isDigit = true :=
    forall_mem_ofList_of_all (by decide +kernel)
  exact hall c h hd

/-- Behind the third numeral nothing but foreign digits and plus signs is rewritten. -/
private theorem stopForPlus_hyphenate {c : Char}
    (h : c ∈ CharSet.versionCharacters ∨ isDigit c = true) :
    stopForPlus (hyphenate c) = buildCharacter c := by
  by_cases hc : c ∈ CharSet.versionCharacters
  · rw [hyphenate_of_mem hc, buildCharacter, if_neg]
    rintro ⟨hd, hascii⟩
    exact hascii (asciiDigit_of_mem hc hd)
  · have hd : isDigit c = true := h.resolve_left hc
    have hascii : ¬ c.isDigit = true := mt mem_versionCharacters_of_asciiDigit hc
    rw [hyphenate, if_neg hc, buildCharacter, if_pos ⟨hd, hascii⟩]
    rfl

/-- What may stand behind the third numeral. -/
private theorem mem_or_isDigit_of_mem (h : tag.WellFormed) :
    ∀ c ∈ dotted (tag.numerals.drop 3) ++ tag.suffix,
      c ∈ CharSet.versionCharacters ∨ isDigit c = true := by
  have hnumerals : ∀ c ∈ dotted (tag.numerals.drop 3),
      c ∈ CharSet.versionCharacters ∨ isDigit c = true :=
    forall_mem_dotted (Or.inl (by decide)) fun n hn c hc =>
      Or.inr ((h.numeral n (List.drop_subset _ _ hn)).2 c hc)
  intro c hc
  rcases List.mem_append.mp hc with hc | hc
  · exact hnumerals c hc
  · exact Or.inl (mem_versionCharacters_of_isSuffix h.suffix c hc)

/-- A tag of up to three numerals is cut at the first plus sign of its suffix. -/
private theorem lenientParts_suffix (h : tag.WellFormed) (hn : tag.numerals.length ≤ 3) :
    lenientParts tag.suffix = (tag.prereleaseText, tag.buildText) := by
  rw [prereleaseText, buildText, if_pos hn]
  cases hs : tag.suffix with
  | nil => simp [lenientParts]
  | cons y t =>
    rcases eq_or_eq_of_isSuffix (hs ▸ h.suffix) with rfl | rfl
    · rw [lenientParts_hyphen, if_pos ⟨hn, rfl⟩]
      rfl
    · rw [lenientParts_of_head?_ne (by simp), if_neg (by simp)]
      rfl

/-- A tag of more numerals has no prerelease. -/
private theorem lenientParts_extra (h : tag.WellFormed) (hn : ¬ tag.numerals.length ≤ 3) :
    lenientParts tag.rest = (tag.prereleaseText, tag.buildText) := by
  have hdrop : tag.numerals.drop 3 ≠ [] := by simpa using hn
  obtain ⟨n, ns, hns⟩ := List.exists_cons_of_ne_nil hdrop
  have hrest : tag.rest =
      '.' :: (dotted (tag.numerals.drop 3) ++ tag.suffix).map hyphenate := by
    rw [rest_eq, hns, flatMap_dot]
    rfl
  have hbuild : ((dotted (tag.numerals.drop 3) ++ tag.suffix).map hyphenate).map
      stopForPlus = tag.buildText := by
    rw [buildText, if_neg hn, List.map_map]
    exact List.map_congr_left fun c hc => stopForPlus_hyphenate (mem_or_isDigit_of_mem h c hc)
  rw [hrest, lenientParts_of_head?_ne (by simp), prereleaseText, if_neg (fun hp => hn hp.1),
    ← hbuild]
  rfl

/-- What follows the numbers of a tag is cut into its prerelease and its build. -/
theorem lenientParts_rest (h : tag.WellFormed) :
    lenientParts tag.rest = (tag.prereleaseText, tag.buildText) := by
  by_cases hn : tag.numerals.length ≤ 3
  · rw [rest_of_length_le h.suffix hn]
    exact lenientParts_suffix h hn
  · exact lenientParts_extra h hn

/-- Numerals that are left out are not too long. -/
private theorem exists_longNumber_iff {l : List (List Char)} :
    (∃ n ∈ l.take 3, LongNumber n) ↔ LongNumber (l.getD 0 []) ∨
      LongNumber (l.getD 1 []) ∨ LongNumber (l.getD 2 []) := by
  have hnil : ¬ LongNumber [] := by decide
  match l with
  | [] => simp [hnil]
  | [a] => simp [hnil]
  | [a, b] => simp [hnil]
  | a :: b :: c :: l => simp

theorem undecodable_iff : tag.Undecodable ↔ (∃ n ∈ tag.numerals.take 3, LongNumber n) ∨
    (∃ w ∈ words tag.prereleaseText, FaultyIdentifier w) ∨
      ∃ w ∈ words tag.buildText, FaultyBuild w := by
  constructor
  · rintro (h | ⟨hw, hd, hz⟩ | ⟨hn, hl⟩ | ⟨hw, hd, hl⟩)
    · rcases List.mem_append.mp h with h | h
      · exact Or.inr (Or.inl ⟨[], h, Or.inl rfl⟩)
      · exact Or.inr (Or.inr ⟨[], h, Or.inl rfl⟩)
    · exact Or.inr (Or.inl ⟨_, hw, Or.inr ⟨hd, Or.inl hz⟩⟩)
    · exact Or.inl ⟨_, hn, hl⟩
    · rcases List.mem_append.mp hw with hw | hw
      · exact Or.inr (Or.inl ⟨_, hw, Or.inr ⟨hd, Or.inr hl⟩⟩)
      · exact Or.inr (Or.inr ⟨_, hw, Or.inr ⟨hd, hl⟩⟩)
  · rintro (⟨n, hn, hl⟩ | ⟨w, hw, rfl | ⟨hd, hz | hl⟩⟩ | ⟨w, hw, rfl | ⟨hd, hl⟩⟩)
    · exact .longNumber hn hl
    · exact .empty (List.mem_append_left _ hw)
    · exact .spareZero hw hd hz
    · exact .longIdentifier (List.mem_append_left _ hw) hd hl
    · exact .empty (List.mem_append_right _ hw)
    · exact .longIdentifier (List.mem_append_right _ hw) hd hl

instance (tag : Tag) : Decidable tag.Undecodable := decidable_of_iff' _ undecodable_iff

/-- A tag is read as the version that it stands for, if it stands for one. -/
theorem lenient?_eq_some_iff (h : tag.WellFormed) {v : SemanticVersion} :
    tag.lenient? = some v ↔ ¬ tag.Undecodable ∧ v = tag.decoded := by
  have hnumbers : (∀ n ∈ [tag.numeral 0, tag.numeral 1, tag.numeral 2], IsNumber n) ↔
      ¬ ∃ n ∈ tag.numerals.take 3, LongNumber n := by
    rw [exists_longNumber_iff]
    simp only [List.forall_mem_cons, List.not_mem_nil, false_implies, implies_true, and_true,
      numeral, isNumber_stripZeros_iff, LongNumber, Nat.not_lt, not_or]
  rw [lenient?_eq_ofParts?, lenientParts_rest h, ofParts?_eq_some_iff, hnumbers, undecodable_iff]
  simp only [numeral, numeralValue_stripZeros, decoded, not_or, not_exists, not_and, and_assoc]

/-- The identifiers of the prerelease are written as they stand in the tag. -/
theorem map_text_prerelease_decoded (h : ¬ tag.Undecodable) :
    tag.decoded.prerelease.map Identifier.text = words tag.prereleaseText := by
  refine Identifier.map_text_ofWord fun w hw => ⟨?_, fun hd => Bool.eq_false_iff.mpr fun hz => ?_⟩
  · rintro rfl
    exact h (.empty (List.mem_append_left _ hw))
  · exact h (.spareZero hw hd hz)

end Tag

namespace Version

variable [VersionLibrary] [LawfulVersionLibrary]

/-- A text names no version unless it spells a tag. If it does, it names none exactly if the tag has
an empty identifier, a spare zero in its prerelease or a number that is too long, and otherwise it
names a version with the parts that the tag stands for; the identifiers of this version are the
words of the prerelease and of the build. -/
theorem ofTag?_decodes (t : List Char) :
    ((∀ tag : Tag, tag.WellFormed → ¬ tag.SpelledBy t) → ofTag? t = none) ∧
    ∀ tag : Tag, tag.WellFormed → tag.SpelledBy t →
      (ofTag? t = none ↔ tag.Undecodable) ∧
      (¬ tag.Undecodable → ∃ v, ofTag? t = some v ∧ v.parts = tag.decoded ∧
        v.prerelease.map Identifier.text = SemanticVersion.words tag.prereleaseText) := by
  refine ⟨ofTag?_eq_none_of_not_spelledBy, fun tag hwf ht => ?_⟩
  have hdecoded : ¬ tag.Undecodable → ∃ v, ofTag? t = some v ∧ v.parts = tag.decoded := by
    intro hno
    rw [← Option.map_eq_some_iff, map_parts_ofTag? hwf ht, Tag.lenient?_eq_some_iff hwf]
    exact ⟨hno, rfl⟩
  refine ⟨⟨fun hnone => ?_, fun hu => ?_⟩, fun hno => ?_⟩
  · refine Decidable.byContradiction fun hno => ?_
    obtain ⟨v, hv, -⟩ := hdecoded hno
    exact absurd (hnone.symm.trans hv) nofun
  · refine Option.eq_none_iff_forall_ne_some.mpr fun v hv => ?_
    have hparts := map_parts_ofTag? hwf ht
    rw [hv] at hparts
    exact ((Tag.lenient?_eq_some_iff hwf).mp hparts.symm).1 hu
  · obtain ⟨v, hv, hparts⟩ := hdecoded hno
    refine ⟨v, hv, hparts, ?_⟩
    rw [prerelease, hparts]
    exact tag.map_text_prerelease_decoded hno

end Version

/-- A fourth numeral opens the build, foreign digits in it and what looks like a prerelease
included, and a zero in front is spare in a prerelease only. -/
theorem Version.ofTag?_decodes_four_numerals :
    (∃ v, ofTag? " V1.02.٣.4٥-rc+x\n".toList = some v ∧
      v.parts = ⟨1, 2, 3, [], ["4--rc".toList, "x".toList]⟩) ∧
      ofTag? "1.02-0.01".toList = none := by
  have hextra : Tag.ofText? (Tag.dropMark (trim " V1.02.٣.4٥-rc+x\n".toList)) =
      some ⟨["1".toList, "02".toList, "٣".toList, "4٥".toList], "-rc+x".toList⟩ := by decide +kernel
  have hzero : Tag.ofText? (Tag.dropMark (trim "1.02-0.01".toList)) =
      some ⟨["1".toList, "02".toList], "-0.01".toList⟩ := by decide +kernel
  obtain ⟨hwf, ht⟩ := Tag.ofText?_dropMark_trim_eq_some_iff.mp hextra
  obtain ⟨hwf', ht'⟩ := Tag.ofText?_dropMark_trim_eq_some_iff.mp hzero
  constructor
  · obtain ⟨v, hv, hparts, -⟩ := ((ofTag?_decodes _).2 _ hwf ht).2 (by decide +kernel)
    exact ⟨v, hv, hparts⟩
  · exact ((ofTag?_decodes _).2 _ hwf' ht').1.mpr (by decide +kernel)

end DependencyClause
