import DependencyClause.Proofs.Text.Decimal
import DependencyClause.Version.Reading

/-!
# The parts of a version

Identifiers are words: texts of version characters without the full stop that parts identifiers and
the plus sign that opens a build. Words are found again in the text that they are joined to. A
version is read from the texts of its parts exactly if none of them has a fault.
-/

namespace DependencyClause

open Text

theorem mem_versionCharacters_of_asciiDigit {x : Char} (h : x.isDigit = true) :
    x ∈ CharSet.versionCharacters := by
  have hall : ∀ d < 10, Nat.digitChar d ∈
      "0123456789abcdefghijklmnopqrstuvwxyzABCDEFGHIJKLMNOPQRSTUVWXYZ.-+".toList := by
    decide
  obtain ⟨d, hd, rfl⟩ := exists_eq_digitChar h
  exact CharSet.mem_ofList.mpr (hall d hd)

/-- The digits of a number are a word. -/
theorem isWord_decimal (n : Nat) : IsWord (decimal n) := by
  refine ⟨decimal_ne_nil n, fun x hx => ?_, fun hx => ?_⟩
  · have hd := isDigit_of_mem_decimal hx
    refine ⟨mem_versionCharacters_of_asciiDigit hd, ?_⟩
    rintro rfl
    exact absurd hd (by decide)
  · exact absurd (isDigit_of_mem_decimal hx) (by decide)

/-- Without its spare zeros a numeral is a number, unless the digits that are left are too many. -/
theorem isNumber_stripZeros_iff {n : List Char} :
    IsNumber (stripZeros n) ↔ (n.dropWhile (· == '0')).length ≤ maxDigits := by
  have hlength : (stripZeros n).length ≤ maxDigits ↔
      (n.dropWhile (· == '0')).length ≤ maxDigits := by
    rw [stripZeros]
    cases n.dropWhile (· == '0') with
    | nil => decide
    | cons d r => exact Iff.rfl
  rw [← hlength]
  exact ⟨fun h => h.length_le, fun h => ⟨hasSpareZero_stripZeros n, h⟩⟩

namespace SemanticVersion

theorem dotted_cons_cons (p q : List Char) (ps : List (List Char)) :
    dotted (p :: q :: ps) = p ++ '.' :: dotted (q :: ps) := by
  rw [dotted, List.intercalate_cons_cons, List.append_assoc]
  rfl

/-- What holds of the full stop and of all characters of the parts holds of what they are joined
to. -/
theorem forall_mem_dotted {P : Char → Prop} (hdot : P '.') {ps : List (List Char)}
    (h : ∀ p ∈ ps, ∀ x ∈ p, P x) : ∀ x ∈ dotted ps, P x := by
  induction ps with
  | nil => exact fun x hx => absurd hx List.not_mem_nil
  | cons p ps ih =>
    obtain ⟨hp, hps⟩ := List.forall_mem_cons.mp h
    cases ps with
    | nil =>
      rw [dotted, List.intercalate_singleton]
      exact hp
    | cons q ps =>
      rw [dotted_cons_cons]
      intro x hx
      rcases List.mem_append.mp hx with hx | hx
      · exact hp x hx
      · rcases List.mem_cons.mp hx with rfl | hx
        · exact hdot
        · exact ih hps x hx

theorem isDottedText_dotted {ps : List (List Char)} (h : ∀ p ∈ ps, IsWord p) :
    IsDottedText (dotted ps) :=
  forall_mem_dotted (by decide) fun p hp => (h p hp).dottedText

/-- What parts are joined to starts with the first part. -/
theorem exists_dotted_eq_append (p : List Char) (ps : List (List Char)) :
    ∃ s, dotted (p :: ps) = p ++ s := by
  cases ps with
  | nil => exact ⟨[], by rw [dotted, List.intercalate_singleton, List.append_nil]⟩
  | cons q ps => exact ⟨'.' :: dotted (q :: ps), dotted_cons_cons p q ps⟩

/-- Words are joined to nothing only if there are none. -/
theorem dotted_ne_nil {p : List Char} {ps : List (List Char)} (hp : p ≠ []) :
    dotted (p :: ps) ≠ [] := by
  obtain ⟨s, hs⟩ := exists_dotted_eq_append p ps
  rw [hs]
  exact List.append_ne_nil_of_left_ne_nil hp s

/-- What a text is parted into holds characters of the text, but not the one it is parted at. -/
theorem mem_of_mem_splitOn {a x : Char} {t w : List Char} (hw : w ∈ t.splitOn a) (hx : x ∈ w) :
    x ∈ t ∧ x ≠ a := by
  induction t generalizing w with
  | nil =>
    rw [List.splitOn_eq_singleton List.not_mem_nil, List.mem_singleton] at hw
    exact absurd hx (hw ▸ List.not_mem_nil)
  | cons y t ih =>
    rw [List.splitOn_cons_eq_if_modifyHead] at hw
    by_cases hy : y = a
    · rw [if_pos (beq_iff_eq.mpr hy)] at hw
      rcases List.mem_cons.mp hw with rfl | hw
      · exact absurd hx List.not_mem_nil
      · exact ⟨List.mem_cons_of_mem _ (ih hw hx).1, (ih hw hx).2⟩
    · rw [if_neg (by simpa using hy)] at hw
      obtain ⟨v, vs, hv⟩ := List.exists_cons_of_ne_nil (List.splitOn_ne_nil a t)
      rw [hv, List.modifyHead_cons] at hw
      rw [hv] at ih
      rcases List.mem_cons.mp hw with rfl | hw
      · rcases List.mem_cons.mp hx with rfl | hx
        · exact ⟨List.mem_cons_self, hy⟩
        · have hm := ih List.mem_cons_self hx
          exact ⟨List.mem_cons_of_mem _ hm.1, hm.2⟩
      · have hm := ih (List.mem_cons_of_mem _ hw) hx
        exact ⟨List.mem_cons_of_mem _ hm.1, hm.2⟩

/-- What a text of identifiers is parted into are words, unless one is empty. -/
theorem isWord_of_mem_words {t w : List Char} (ht : IsDottedText t) (hw : w ∈ words t)
    (hne : w ≠ []) : IsWord w := by
  rw [words] at hw
  split at hw
  · exact absurd hw List.not_mem_nil
  · exact
      { ne_nil := hne
        dottedText := fun x hx => ht x (mem_of_mem_splitOn hw hx).1
        not_mem_dot := fun hx => (mem_of_mem_splitOn hw hx).2 rfl }

/-- Words are found in what they are joined to. -/
theorem words_dotted {ps : List (List Char)} (h : ∀ p ∈ ps, IsWord p) : words (dotted ps) = ps := by
  cases ps with
  | nil => rfl
  | cons p ps =>
    rw [words, if_neg (dotted_ne_nil (h p List.mem_cons_self).ne_nil)]
    exact List.splitOn_intercalate '.' (fun q hq => (h q hq).not_mem_dot) (List.cons_ne_nil p ps)

section Words

variable {α : Type} {read? : List Char → Option α} {f : List Char → α} {P : List Char → Prop}
  [DecidablePred P]

private theorem mapM_eq (h : ∀ w, read? w = if P w then none else some (f w))
    (ws : List (List Char)) :
    ws.mapM read? = if ∃ w ∈ ws, P w then none else some (ws.map f) := by
  induction ws with
  | nil => simp
  | cons w ws ih =>
    rw [List.mapM_cons, ih, h]
    by_cases hw : P w
    · simp [hw]
    · by_cases hws : ∃ w ∈ ws, P w
      · simp [hw, hws]
      · simp [hw, hws]

/-- Where a single word is read unless it has some fault, a text is read word by word unless one of
its words has the fault. -/
theorem readParts?_eq (h : ∀ w, read? w = if P w then none else some (f w)) (t : List Char) :
    readParts? read? t = if ∃ w ∈ words t, P w then none else some ((words t).map f) := by
  rw [readParts?, words]
  split
  · simp
  · exact mapM_eq h _

end Words

/-- The word is no identifier of a prerelease. -/
def FaultyIdentifier (w : List Char) : Prop :=
  w = [] ∨ w.all Char.isDigit = true ∧ (hasSpareZero w = true ∨ maxDigits < w.length)

instance (w : List Char) : Decidable (FaultyIdentifier w) := inferInstanceAs (Decidable (_ ∨ _))

/-- The word is no identifier of a build. -/
def FaultyBuild (w : List Char) : Prop :=
  w = [] ∨ w.all Char.isDigit = true ∧ maxDigits < w.length

instance (w : List Char) : Decidable (FaultyBuild w) := inferInstanceAs (Decidable (_ ∨ _))

theorem readIdentifier?_eq (w : List Char) :
    readIdentifier? w = if FaultyIdentifier w then none else some (Identifier.ofWord w) := by
  simp only [readIdentifier?, Identifier.ofWord, FaultyIdentifier]
  by_cases hne : w = []
  · simp [hne]
  · by_cases hd : w.all Char.isDigit = true
    · by_cases hz : hasSpareZero w = true
      · simp [hne, hd, hz, readNumber?]
      · by_cases hl : maxDigits < w.length
        · simp [hne, hd, hz, hl, readNumber?, readNumeral?, Nat.not_le.mpr hl]
        · simp [hne, hd, hz, hl, readNumber?, readNumeral?, Nat.not_lt.mp hl]
    · simp [hne, hd]

theorem readBuild?_eq (w : List Char) :
    readBuild? w = if FaultyBuild w then none else some (id w) := by
  simp only [readBuild?, FaultyBuild]
  by_cases hne : w = []
  · simp [hne]
  · simp [hne]

/-- A number is read from its digits, if these are a number. -/
theorem readNumber?_eq_some_iff {t : List Char} {n : Nat} :
    readNumber? t = some n ↔ IsNumber t ∧ numeralValue t = n := by
  rw [readNumber?, readNumeral?]
  constructor
  · intro h
    split at h
    · cases h
    · next hz =>
      split at h
      · next hl => exact ⟨⟨Bool.eq_false_iff.mpr hz, hl⟩, Option.some.inj h⟩
      · cases h
  · rintro ⟨⟨hz, hl⟩, rfl⟩
    rw [hz, if_neg Bool.false_ne_true, if_pos hl]

theorem not_faultyIdentifier_iff {w : List Char} :
    ¬ FaultyIdentifier w ↔ w ≠ [] ∧ (w.all Char.isDigit = true → IsNumber w) := by
  rw [FaultyIdentifier, not_or]
  refine and_congr_right fun _ => ⟨fun h hd => ?_, fun h hw => ?_⟩
  · exact ⟨Bool.eq_false_iff.mpr fun hz => h ⟨hd, Or.inl hz⟩,
      Nat.le_of_not_lt fun hl => h ⟨hd, Or.inr hl⟩⟩
  · obtain ⟨hz, hl⟩ := h hw.1
    rcases hw.2 with hz' | hl'
    · exact absurd (hz.symm.trans hz') Bool.false_ne_true
    · exact absurd hl (Nat.not_le_of_lt hl')

theorem not_faultyBuild_iff {w : List Char} :
    ¬ FaultyBuild w ↔ w ≠ [] ∧ (w.all Char.isDigit = true → w.length ≤ maxDigits) := by
  rw [FaultyBuild, not_or]
  refine and_congr_right fun _ => ⟨fun h hd => ?_, fun h hw => ?_⟩
  · exact Nat.le_of_not_lt fun hl => h ⟨hd, hl⟩
  · exact absurd (h hw.1) (Nat.not_le_of_lt hw.2)

/-- A version is read from its parts exactly if none of them has a fault. -/
theorem ofParts?_eq_some_iff {a b c p t : List Char} {v : SemanticVersion} :
    ofParts? a b c p t = some v ↔ (∀ n ∈ [a, b, c], IsNumber n) ∧
      (∀ w ∈ words p, ¬ FaultyIdentifier w) ∧ (∀ w ∈ words t, ¬ FaultyBuild w) ∧
      v = { major := numeralValue a, minor := numeralValue b, patch := numeralValue c
            prerelease := (words p).map .ofWord, build := words t } := by
  rw [ofParts?, readParts?_eq readIdentifier?_eq, readParts?_eq readBuild?_eq]
  constructor
  · intro h
    obtain ⟨major, ha, h⟩ := Option.bind_eq_some_iff.mp h
    obtain ⟨minor, hb, h⟩ := Option.bind_eq_some_iff.mp h
    obtain ⟨patch, hc, h⟩ := Option.bind_eq_some_iff.mp h
    obtain ⟨prerelease, hp, h⟩ := Option.bind_eq_some_iff.mp h
    obtain ⟨build, ht, h⟩ := Option.bind_eq_some_iff.mp h
    obtain ⟨hmajor, rfl⟩ := readNumber?_eq_some_iff.mp ha
    obtain ⟨hminor, rfl⟩ := readNumber?_eq_some_iff.mp hb
    obtain ⟨hpatch, rfl⟩ := readNumber?_eq_some_iff.mp hc
    split at hp
    · cases hp
    · next hpno =>
      split at ht
      · cases ht
      · next htno =>
        obtain rfl := Option.some.inj hp
        obtain rfl := Option.some.inj ht
        obtain rfl := Option.some.inj h
        refine ⟨?_, fun w hw hf => hpno ⟨w, hw, hf⟩, fun w hw hf => htno ⟨w, hw, hf⟩, ?_⟩
        · exact List.forall_mem_cons.mpr
            ⟨hmajor, List.forall_mem_cons.mpr ⟨hminor, List.forall_mem_singleton.mpr hpatch⟩⟩
        · rw [List.map_id]
  · rintro ⟨hnumbers, hp, ht, rfl⟩
    have hread : ∀ n ∈ [a, b, c], readNumber? n = some (numeralValue n) := fun n hn =>
      readNumber?_eq_some_iff.mpr ⟨hnumbers n hn, rfl⟩
    have hpno : ¬ ∃ w ∈ words p, FaultyIdentifier w := by simpa using hp
    have htno : ¬ ∃ w ∈ words t, FaultyBuild w := by simpa using ht
    rw [hread a (by simp), hread b (by simp), hread c (by simp), if_neg hpno, if_neg htno,
      List.map_id]
    rfl

end SemanticVersion

end DependencyClause
