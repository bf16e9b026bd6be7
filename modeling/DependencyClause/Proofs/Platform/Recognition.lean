import DependencyClause.Proofs.Grammar.Platforms
import DependencyClause.Proofs.Parser.Faults
import DependencyClause.Proofs.Parser.Onward
import DependencyClause.Proofs.Parser.Rejects

/-!
# Recognising a platform

At any place in any text at most one spelling of a platform lies ahead, so it does not count in
which order the platforms and their aliases are tried. A platform can also be looked up by its name;
the lookup accepts a name exactly if the platform is read from it and only blanks are left over.
-/

namespace DependencyClause

open Text Cursor

/-- Blanks fold to themselves. -/
theorem Text.foldChar_of_isBlank {x : Char} (h : isBlank x = true) : foldChar x = [x] := by
  have hall : ∀ r ∈ blankRanges, ∀ k < r.2 + 1 - r.1,
      foldChar (Char.ofNat (r.1 + k)) = [Char.ofNat (r.1 + k)] := by decide +kernel
  obtain ⟨r, hr, hle, hge⟩ := inRanges_iff.mp h
  have hx := hall r hr (x.toNat - r.1) (by omega)
  rwa [Nat.add_sub_cancel' hle, Char.ofNat_toNat] at hx

/-- What scans skip unless told otherwise is blank. -/
theorem Text.isBlank_of_mem_blanks {x : Char} (h : x ∈ CharSet.blanks) : isBlank x = true := by
  have hall : ∀ x ∈ CharSet.blanks, isBlank x = true := forall_mem_ofList_of_all (by decide)
  exact hall x h

namespace Platform

variable {p q : Platform} {d : Cursor} {t : List Char}

/-- The spellings with their platforms where the platforms and the aliases of each are listed as
given. -/
def vocabularyIn (order : List Platform) (aliases : Platform → List String) :
    List (List Char × Platform) :=
  order.flatMap fun p => (p.text :: (aliases p).map String.toList).map (·, p)

/-- Another order of platforms and aliases lists the same spellings. -/
theorem mem_vocabularyIn {order : List Platform} {aliases' : Platform → List String}
    (horder : order.Perm all) (haliases : ∀ p, (aliases' p).Perm (aliases p))
    (x : List Char × Platform) : x ∈ vocabularyIn order aliases' ↔ x ∈ vocabulary := by
  have hspellings : ∀ p, (p.text :: (aliases' p).map String.toList).Perm p.spellings :=
    fun p => ((haliases p).map _).cons _
  simp only [vocabularyIn, vocabulary, List.mem_flatMap, List.mem_map, horder.mem_iff,
    (hspellings _).mem_iff]

/-- Whatever is read as a platform from a vocabulary with the same spellings is read alike. -/
theorem parserFor_congr {m : List (List Char × Platform)} (h : ∀ x, x ∈ m ↔ x ∈ vocabulary) :
    parserFor m = parser := by
  have hchoose : (fun c : Cursor => c.choose? m) = fun c => c.choose? vocabulary :=
    funext fun c => unambiguous_vocabulary.choose?_congr h c
  rw [parser, parserFor, parserFor, hchoose]

/-- In no text, at no place and under no settings do two spellings lie ahead whatever their case;
and in whatever order the platforms and the aliases of each are tried, the same platform is read, or
the text is rejected alike, and the same cursor and events are left behind. -/
theorem order_irrelevant :
    (∀ (c : Cursor) (p q : Platform) (s t : List Char), s ∈ p.spellings → t ∈ q.spellings →
      (({ c with caseSensitive := false } : Cursor).literal? s).isSome →
      (({ c with caseSensitive := false } : Cursor).literal? t).isSome → s = t ∧ p = q) ∧
    ∀ (order : List Platform) (aliases' : Platform → List String),
      order.Perm all → (∀ p, (aliases' p).Perm p.aliases) →
        ∀ c, (parserFor (vocabularyIn order aliases')).run c = parser.run c := by
  constructor
  · intro c p q s t hs ht hc hd
    obtain ⟨d, hd'⟩ := Option.isSome_iff_exists.mp hc
    obtain ⟨e, he⟩ := Option.isSome_iff_exists.mp hd
    have heq : (s, p) = (t, q) :=
      unambiguous_vocabulary.eq_of_literal? (mem_vocabulary.mpr hs) (mem_vocabulary.mpr ht) hd' he
    exact Prod.mk.inj heq
  · intro order aliases' horder haliases c
    rw [parserFor_congr (mem_vocabularyIn horder haliases)]

/-- A ligature at the end of the text completes a name, and the cursor comes to lie past the end; no
other name that starts alike lies ahead, and the platforms can be tried from the last to the
first. -/
theorem order_irrelevant_ligature :
    ({ text := "maccatalyﬆ".toList, caseSensitive := false } : Cursor).literal?
        "maccatalyst".toList = some { text := "maccatalyﬆ".toList, location := 11 } ∧
    ({ text := "maccatalyﬆ".toList, caseSensitive := false } : Cursor).literal?
        "macos".toList = none ∧
    (parserFor (vocabularyIn all.reverse aliases)).run { text := "maccatalyﬆ".toList } =
      parser.run { text := "maccatalyﬆ".toList } := by
  have hlies : ({ text := "maccatalyﬆ".toList, caseSensitive := false } : Cursor).literal?
      "maccatalyst".toList = some { text := "maccatalyﬆ".toList, location := 11 } := by
    decide +kernel
  refine ⟨hlies, Option.not_isSome_iff_eq_none.mp fun hother => ?_, ?_⟩
  · have heq := (order_irrelevant.1 { text := "maccatalyﬆ".toList } maccatalyst macos _ _
      List.mem_cons_self List.mem_cons_self (by rw [text]; exact hlies ▸ rfl) hother).2
    exact absurd heq nofun
  · exact order_irrelevant.2 _ _ (List.reverse_perm _) (fun _ => .refl _) _

/-- A text is written as one platform at most. -/
theorem Written.unique (hp : p.Written t) (hq : q.Written t) : p = q := by
  obtain ⟨s, hs, hfold⟩ := hp
  obtain ⟨s', hs', hfold'⟩ := hq
  have hsame : fold s = fold s' := hfold.symm.trans hfold'
  have hprefix : fold s <+: fold s' := hsame ▸ List.prefix_rfl
  exact congrArg Prod.snd
    (unambiguous_vocabulary (s, p) (mem_vocabulary.mpr hs) (s', q) (mem_vocabulary.mpr hs') hprefix)

theorem Written.ne_nil (h : p.Written t) : t ≠ [] := by
  obtain ⟨s, hs, hfold⟩ := h
  intro ht
  rw [ht, fold_nil] at hfold
  exact ne_nil_of_mem_spellings hs (fold_eq_nil_iff.mp hfold.symm)

/-- A written platform holds no blank of any kind. -/
theorem Written.isBlank_eq_false (h : p.Written t) : ∀ x ∈ t, isBlank x = false := by
  have hall : ∀ s ∈ p.spellings, (fold s).all (isBlank · = false) = true := by
    cases p <;> decide
  obtain ⟨s, hs, hfold⟩ := h
  intro x hx
  refine Bool.eq_false_iff.mpr fun hb => ?_
  have hmem : x ∈ fold t := List.mem_flatMap.mpr ⟨x, hx, by simp [foldChar_of_isBlank hb]⟩
  rw [hfold] at hmem
  exact absurd (forall_mem_of_all (hall s hs) x hmem) (by simp [hb])

/-- A name is that of a platform exactly if it writes the platform between blanks. -/
theorem ofName_eq_ok_iff : ofName t = .ok p ↔ p.Written (trim t) := by
  have hfound : ∀ q : Platform,
      (q.spellings.any (fold · = fold (trim t))) = true ↔ q.Written (trim t) := by
    intro q
    rw [List.any_eq_true]
    exact ⟨fun ⟨s, hs, h⟩ => ⟨s, hs, (of_decide_eq_true h).symm⟩,
      fun ⟨s, hs, h⟩ => ⟨s, hs, decide_eq_true h.symm⟩⟩
  rw [ofName]
  cases hfind : all.find? fun q => q.spellings.any (fold · = fold (trim t)) with
  | some q =>
    have hq := (hfound q).mp (List.find?_some hfind :)
    constructor
    · intro h
      obtain rfl := Except.ok.inj h
      exact hq
    · exact fun hp => congrArg Except.ok (hq.unique hp)
  | none =>
    refine ⟨nofun, fun hp => ?_⟩
    exact absurd ((hfound p).mpr hp) (List.find?_eq_none.mp hfind p (mem_all p))

/-- A name that no platform has is told as it was given. -/
theorem ofName_eq_error_iff {e : Unknown} :
    ofName t = .error e ↔ e = ⟨t⟩ ∧ ∀ p, ofName t ≠ .ok p := by
  rw [ofName]
  cases all.find? fun q => q.spellings.any (fold · = fold (trim t)) with
  | some q => simp
  | none => simp [eq_comm]

/-- A platform whose name is trimmed of nothing but blanks to skip is read, and leaves blanks. -/
theorem exists_parser_reads_of_written_trim (ht : ∀ x ∈ t, FoldsSingly x)
    (hb : ∀ x ∈ t.takeWhile isBlank, x ∈ CharSet.blanks) (hp : p.Written (trim t)) :
    ∃ d, parser.Reads { text := t } p d ∧ ∀ x ∈ d.remaining, isBlank x = true := by
  obtain ⟨l, r, hsplit, hl, hr⟩ := exists_eq_append_trim t
  have hrun : IsBlankRun l := by
    intro x hx
    have hfront : t.takeWhile isBlank = l ++ (trim t ++ r).takeWhile isBlank := by
      conv => lhs; rw [hsplit, List.append_assoc]
      exact List.takeWhile_append_of_pos hl
    exact hb x (hfront ▸ List.mem_append_left _ hx)
  have hfold : ∀ x ∈ trim t, FoldsSingly x := by
    intro x hx
    refine ht x ?_
    rw [hsplit]
    exact List.mem_append_left _ (List.mem_append_right _ hx)
  obtain ⟨d, hd, hrest⟩ := exists_passes (c := { text := t }) hsplit
  exact ⟨d, parser_reads_of_written (plain_fresh t) hrun hp hfold hd, hrest ▸ hr⟩

/-- A platform that is read up to blanks is written between blanks. -/
theorem written_trim_of_parser_reads (ht : ∀ x ∈ t, FoldsSingly x)
    (h : parser.Reads { text := t } p d) (hrest : ∀ x ∈ d.remaining, isBlank x = true) :
    p.Written (trim t) := by
  have honward : parser.Onward { text := t } :=
    Parser.compositional_onward.platform (o := none) nofun
  have hd : d.InText := h.2 ▸ (honward ⟨ht, inText_fresh t⟩).inText
  obtain ⟨w, s, hw, hs, hpasses⟩ := exists_written_of_parser_reads (plain_fresh t) h hd
  have hsplit : t = w ++ s ++ d.remaining := hpasses.remaining_eq
  have htrim : trim t = s := by
    rw [hsplit]
    exact trim_append (fun x hx => isBlank_of_mem_blanks (hw x hx)) hrest hs.ne_nil
      hs.isBlank_eq_false
  rwa [htrim]

/-- A platform is read, or the text is rejected. -/
theorem exists_parser_reads_or_rejects (c : Cursor) :
    (∃ p d, parser.Reads c p d) ∨ ∃ f d, parser.Rejects c f d := by
  cases hread : (parser.run c).outcome with
  | value p => exact Or.inl ⟨p, _, hread, rfl⟩
  | rejected f => exact Or.inr ⟨f, _, hread, rfl⟩
  | fault e =>
    have hfault : parser.Faultless c := Parser.compositional_faultless.platform (o := none) nofun
    exact absurd hread (hfault e)

/-- Of a text that folds singly, and in front of which nothing is trimmed but blanks to skip, the
lookup finds the platform that is read from it, provided that only blanks are left over. It fails,
with the text as it was given, exactly where no platform is read or something else is left over. -/
theorem ofName_agrees_with_reading (ht : ∀ x ∈ t, FoldsSingly x)
    (hb : ∀ x ∈ t.takeWhile isBlank, x ∈ CharSet.blanks) :
    (∀ p, ofName t = .ok p ↔
      ∃ d, parser.Reads { text := t } p d ∧ ∀ x ∈ d.remaining, isBlank x = true) ∧
    ∀ e, ofName t = .error e ↔ e = ⟨t⟩ ∧
      ((∃ f d, parser.Rejects { text := t } f d) ∨
        ∃ p d, parser.Reads { text := t } p d ∧ ∃ x ∈ d.remaining, isBlank x = false) := by
  have hok : ∀ p, ofName t = .ok p ↔
      ∃ d, parser.Reads { text := t } p d ∧ ∀ x ∈ d.remaining, isBlank x = true := by
    intro p
    rw [ofName_eq_ok_iff]
    exact ⟨exists_parser_reads_of_written_trim ht hb,
      fun ⟨d, hd, hrest⟩ => written_trim_of_parser_reads ht hd hrest⟩
  refine ⟨hok, fun e => ?_⟩
  rw [ofName_eq_error_iff]
  refine and_congr_right fun _ => ?_
  simp only [ne_eq, hok]
  constructor
  · intro hnone
    rcases exists_parser_reads_or_rejects { text := t } with ⟨p, d, hread⟩ | hrejected
    · refine Or.inr ⟨p, d, hread, Classical.byContradiction fun hblank => hnone p ⟨d, hread, ?_⟩⟩
      simpa using hblank
    · exact Or.inl hrejected
  · rintro (⟨f, d, hf⟩ | ⟨q, d, hq, x, hx, hblank⟩) p ⟨d', hp, hrest⟩
    · exact absurd (hf.1.symm.trans hp.1) nofun
    · rw [← hp.2, hq.2] at hrest
      exact absurd (hrest x hx) (by simp [hblank])

/-- A name among blanks of several kinds, in letters that fold to those of an alias, and the same
name with a letter behind it. -/
theorem ofName_agrees_with_reading_alias :
    ((∀ x ∈ "\t uiKitFORmac\u2003".toList, FoldsSingly x) ∧
      ofName "\t uiKitFORmac\u2003".toList = .ok maccatalyst) ∧
    (∀ x ∈ "\t uiKitFORmac\u2003".toList.takeWhile isBlank, x ∈ CharSet.blanks) ∧
    ofName "macosx".toList = .error ⟨"macosx".toList⟩ := by
  have hfold : ∀ x ∈ "\t uiKitFORmac\u2003".toList, FoldsSingly x :=
    forall_mem_of_all (by decide +kernel)
  have hfront : ∀ x ∈ "\t uiKitFORmac\u2003".toList.takeWhile isBlank, x ∈ CharSet.blanks :=
    forall_mem_of_all (by decide)
  have hread : parser.Reads { text := "\t uiKitFORmac\u2003".toList } maccatalyst
      { text := "\t uiKitFORmac\u2003".toList, location := 13 } := by
    constructor <;> decide +kernel
  have hother : parser.Reads { text := "macosx".toList } macos
      { text := "macosx".toList, location := 5 } := by
    constructor <;> decide +kernel
  refine ⟨⟨hfold, ?_⟩, hfront, ?_⟩
  · exact ((ofName_agrees_with_reading hfold hfront).1 _).mpr
      ⟨_, hread, forall_mem_of_all (by decide)⟩
  · exact ((ofName_agrees_with_reading (forall_mem_of_all (by decide +kernel))
      (forall_mem_of_all (by decide))).2 _).mpr
      ⟨rfl, Or.inr ⟨_, _, hother, 'x', by decide, by decide⟩⟩

end Platform

end DependencyClause
