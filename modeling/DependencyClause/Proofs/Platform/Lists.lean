import DependencyClause.Proofs.Cursor.Splice
import DependencyClause.Proofs.Grammar.Platforms
import DependencyClause.Proofs.Parser.Onward
import DependencyClause.Proofs.Parser.Rejects
import DependencyClause.Proofs.Parser.Settings

/-!
# What decides a list of platforms

In a text that folds singly, a list of platforms that was read is read again whatever follows its
closing bracket. A list that was rejected is rejected no sooner than it has to be: up to the place
where the reading has stopped the text is the beginning of a list, and `completion` tells how it can
go on.
-/

namespace DependencyClause

open Text Cursor

variable {n : Nat} {z : List Char} {c d : Cursor} {f : Failure}

/-- What is read by a parser that leads onward leaves the cursor onward. -/
theorem Parser.Onward.of_reads {α : Type} {p : Parser α} {a : α} (hp : p.Onward c)
    (hc : c.Faithful) (h : p.Reads c a d) : c.Onward d := h.2 ▸ hp hc

/-- So does what it rejects. -/
theorem Parser.Onward.of_rejects {α : Type} {p : Parser α} (hp : p.Onward c) (hc : c.Faithful)
    (h : p.Rejects c f d) : c.Onward d := h.2 ▸ hp hc

namespace Platform

variable {p : Platform}

/-- A platform that is read in front of the offset is read whatever the text goes on with. -/
theorem parser_reads_splice (h : parser.Reads c p d) (hd : d.location ≤ n)
    (hn : n ≤ c.text.length) : parser.Reads (c.splice n z) p (d.splice n z) := by
  obtain ⟨s, hs, e, he, rfl⟩ := find?_eq_some_iff.mp (parser_reads_iff_find?.mp h)
  have hsplice := literal?_splice (z := z) he hd hn
  exact parser_reads_iff_find?.mpr (find?_eq_some_iff.mpr ⟨s, hs, _, hsplice, rfl⟩)

/-- A platform whose name lies right ahead is read. -/
theorem parser_reads_text (hskip : c.skip = .blanks) (h : c.Passes p.text d) :
    parser.Reads c p d := by
  have hwritten : p.Written p.text := ⟨p.text, List.mem_cons_self, rfl⟩
  have hblank : ∀ x ∈ p.text.head?, x ∉ CharSet.blanks := hwritten.not_mem_blanks_head?
  have hne : p.text ≠ [] := ne_nil_of_mem_spellings (p := p) List.mem_cons_self
  have hpasses : ({ c with caseSensitive := false } : Cursor).Passes p.text
      { d with caseSensitive := false } := ⟨h.remaining_eq, by rw [h.moved]⟩
  refine parser_reads_iff_find?.mpr (find?_eq_some_iff.mpr ⟨p.text, List.mem_cons_self, _,
    literal?_of_passes_here hne (hskip ▸ hblank) hpasses, ?_⟩)
  rw [h.moved]

/-- Where no platform is read the cursor stays. -/
theorem cause_of_parser_rejects (h : parser.Rejects c f d) :
    f.cause = .platformNotFound ∧ d = c := by
  rw [Parser.Rejects, parser, parserFor_run] at h
  cases hf : find? vocabulary c with
  | some found => simp [hf] at h
  | none =>
    rw [hf] at h
    obtain ⟨hf', rfl⟩ := h
    obtain rfl := Outcome.rejected.inj hf'
    exact ⟨rfl, rfl⟩

end Platform

namespace PlatformRestriction

variable {p : Platform} {b : Bool} {found s : PlatformSet}

/-- An item that is read in front of the offset is read whatever the text goes on with. -/
theorem item_reads_splice (h : item.Reads c (p, b) d) (hd : d.location ≤ n)
    (hn : n ≤ c.text.length) : item.Reads (c.splice n z) (p, b) (d.splice n z) := by
  obtain ⟨e, hp, hmark⟩ := item_reads_iff.mp h
  have htext : e.text = c.text :=
    (Platform.location_lt_of_find? (Platform.parser_reads_iff_find?.mp hp)).1
  have hread : ∀ {l}, e.literal? l = some d →
      Platform.parser.Reads (c.splice n z) p (e.splice n z) ∧
        (e.splice n z).literal? l = some (d.splice n z) := by
    intro l hl
    have hle := location_lt_of_literal? hl
    exact ⟨Platform.parser_reads_splice hp (by omega) hn, literal?_splice hl hd (htext ▸ hn)⟩
  rcases hmark with ⟨rfl, hbracket⟩ | ⟨rfl, -, hcomma⟩
  · obtain ⟨hp', hbracket'⟩ := hread hbracket
    exact item_reads_iff.mpr ⟨_, hp', Or.inl ⟨rfl, hbracket'⟩⟩
  · obtain ⟨hp', hcomma'⟩ := hread hcomma
    have hnone := literal?_eq_none_of_other (x := ']') (by decide) (by decide) (by decide) hcomma'
    exact item_reads_iff.mpr ⟨_, hp', Or.inr ⟨rfl, hnone, hcomma'⟩⟩

/-- The items of a list, read in front of the offset, are read whatever the text goes on with. -/
theorem items_reads_splice (hc : c.Faithful) (h : Parser.Reads ⟨items found⟩ c s d)
    (hd : d.location ≤ n) (hn : n ≤ c.text.length) :
    Parser.Reads ⟨items found⟩ (c.splice n z) s (d.splice n z) := by
  induction found, c using items_induction with
  | step found c ih =>
    obtain ⟨p, ⟨hi, rfl⟩ | ⟨e, hi, hrest⟩⟩ := items_reads_iff.mp h
    · exact items_reads_iff.mpr ⟨p, Or.inl ⟨item_reads_splice hi hd hn, rfl⟩⟩
    · have hce : c.Onward e := Parser.compositional_onward.item.of_reads hc hi
      have hed : e.Onward d :=
        (Parser.compositional_onward.items _).of_reads (hce.faithful hc) hrest
      have hle := hed.location_le
      have hih := ih p hi.1
      rw [hi.2] at hih
      refine items_reads_iff.mpr ⟨p, Or.inr ⟨_, item_reads_splice hi (by omega) hn, ?_⟩⟩
      exact hih (hce.faithful hc) hrest (hce.text_eq ▸ hn)

/-- A list that is read in front of the offset is read whatever the text goes on with. -/
theorem parser_reads_splice (hc : c.Faithful) (h : parser.Reads c (among s) d)
    (hd : d.location ≤ n) (hn : n ≤ c.text.length) :
    parser.Reads (c.splice n z) (among s) (d.splice n z) := by
  rcases parser_reads_iff.mp h with ⟨-, hnone, -⟩ | ⟨e, e', s', hkey, hopen, hitems, hs⟩
  · exact absurd hnone nofun
  · have hce := hc.onward_of_literal? hkey
    have hee := (hce.faithful hc).onward_of_literal? hopen
    have hfaithful := hee.faithful (hce.faithful hc)
    have hle := ((Parser.compositional_onward.items _).of_reads hfaithful hitems).location_le
    have hle' := hee.location_le
    have htext : e.text = c.text := hce.text_eq
    have htext' : e'.text = c.text := hee.text_eq.trans htext
    exact parser_reads_iff.mpr (Or.inr ⟨_, _, s', literal?_splice hkey (by omega) hn,
      literal?_splice hopen (by omega) (htext ▸ hn),
      items_reads_splice hfaithful hitems hd (htext' ▸ hn), hs⟩)

/-- How a list can go on where it was rejected for the cause. -/
def completion : Cause → Option (List Char)
  | .listNotFound => some "[ios]".toList
  | .platformNotFound => some "ios]".toList
  | .listMalformed => some "]".toList
  | _ => none

/-- An item is rejected in front of its platform, or behind it. -/
theorem cause_of_item_rejects (h : item.Rejects c f d) :
    f.cause = .platformNotFound ∧ d = c ∨
      f.cause = .listMalformed ∧ ∃ p, Platform.parser.Reads c p d := by
  simp only [item, Parser.rejects_bind, Parser.rejects_ite, Parser.reads_literal,
    Parser.not_rejects_literal, Parser.not_rejects_pure, Parser.rejects_reject, false_or] at h
  rcases h with h | ⟨p, e, hp, b, e', hb, h⟩
  · exact Or.inl (Platform.cause_of_parser_rejects h)
  · rcases hb with ⟨rfl, -⟩ | ⟨rfl, -, rfl⟩
    · exact absurd h (by simp)
    · rw [if_neg Bool.false_ne_true] at h
      obtain ⟨b', e'', hb', h⟩ := h
      rcases hb' with ⟨rfl, -⟩ | ⟨rfl, -, rfl⟩
      · exact absurd h (by simp)
      · rw [if_neg Bool.false_ne_true] at h
        obtain ⟨rfl, rfl⟩ := h
        exact Or.inr ⟨rfl, p, hp⟩

/-- Rejecting the items of a list rejects the first one or, behind it, the others. -/
theorem items_rejects_iff : Parser.Rejects ⟨items found⟩ c f d ↔
    item.Rejects c f d ∨ ∃ p e, item.Reads c (p, true) e ∧
      Parser.Rejects ⟨items (found.insert p)⟩ e f d := by
  rw [items_eq, Parser.rejects_bind]
  refine or_congr_right ⟨?_, ?_⟩
  · rintro ⟨⟨p, more⟩, e, hi, h⟩
    cases more with
    | false => exact absurd h Parser.not_rejects_pure
    | true => exact ⟨p, e, hi, h⟩
  · rintro ⟨p, e, hi, h⟩
    exact ⟨(p, true), e, hi, h⟩

/-- Behind a platform a closing bracket ends the list. -/
theorem exists_item_reads_bracket (hskip : c.skip = .blanks) (hc : c.Faithful)
    (h : Platform.parser.Reads c p d) : ∃ e,
      item.Reads (c.splice d.location [']']) (p, false) e ∧
        e.location = (c.splice d.location [']']).text.length := by
  have hcd : c.Onward d := (Parser.compositional_onward.platform (o := none) nofun).of_reads hc h
  have hread : Platform.parser.Reads (c.splice d.location [']']) p (d.splice d.location [']']) :=
    Platform.parser_reads_splice h (Nat.le_refl _) (hcd.text_eq ▸ hcd.inText)
  have hmoves : c.Moves d :=
    h.2 ▸ (Parser.compositional_onlyMoves.platform (o := none) nofun : Platform.parser.OnlyMoves c)
  obtain ⟨e, he, hend⟩ := exists_passes_splice hcd.inText [']']
  refine ⟨e, item_reads_iff.mpr ⟨_, hread, Or.inl ⟨rfl, ?_⟩⟩, ?_⟩
  · refine literal?_of_passes_mark ?_ he
    rw [skip_splice, hmoves.skip_eq, hskip]
    decide
  · rw [hend, splice, splice, hcd.text_eq]

/-- A name and a closing bracket right ahead end the list. -/
theorem item_reads_text (hskip : c.skip = .blanks) (h : c.Passes (p.text ++ [']']) d) :
    item.Reads c (p, false) d := by
  obtain ⟨e, hp, hbracket⟩ := h.split
  have hmark : e.literal? [']'] = some d := by
    refine literal?_of_passes_mark ?_ hbracket
    rw [hp.skip_eq, hskip]
    decide
  exact item_reads_iff.mpr ⟨e, Platform.parser_reads_text hskip hp, Or.inl ⟨rfl, hmark⟩⟩

/-- Where an item was rejected the list can be completed, with this item as the last one. -/
theorem exists_item_reads_completion (hskip : c.skip = .blanks) (hc : c.Faithful)
    (h : item.Rejects c f d) : ∃ w p e, completion f.cause = some w ∧
      item.Reads (c.splice d.location w) (p, false) e ∧
        e.location = (c.splice d.location w).text.length := by
  rcases cause_of_item_rejects h with ⟨hcause, rfl⟩ | ⟨hcause, p, hp⟩
  · obtain ⟨e, he, hend⟩ := exists_passes_splice hc.inText (Platform.ios.text ++ [']'])
    exact ⟨_, .ios, e, by rw [hcause]; decide, item_reads_text hskip he, hend⟩
  · obtain ⟨e, hread, hend⟩ := exists_item_reads_bracket hskip hc hp
    exact ⟨_, p, e, by rw [hcause]; decide, hread, hend⟩

/-- Where one of the items was rejected the list can be completed: the items in front of it are read
again, whatever follows. -/
theorem exists_items_reads_completion (hskip : c.skip = .blanks) (hc : c.Faithful)
    (h : Parser.Rejects ⟨items found⟩ c f d) : ∃ w s e, completion f.cause = some w ∧
      Parser.Reads ⟨items found⟩ (c.splice d.location w) s e ∧
        e.location = (c.splice d.location w).text.length := by
  induction found, c using items_induction with
  | step found c ih =>
    rcases items_rejects_iff.mp h with hi | ⟨p, e, hi, hrest⟩
    · obtain ⟨w, p, e, hw, hread, hend⟩ := exists_item_reads_completion hskip hc hi
      exact ⟨w, _, e, hw, items_reads_iff.mpr ⟨p, Or.inl ⟨hread, rfl⟩⟩, hend⟩
    · have hce : c.Onward e := Parser.compositional_onward.item.of_reads hc hi
      have hed : e.Onward d :=
        (Parser.compositional_onward.items _).of_rejects (hce.faithful hc) hrest
      have hmoves : c.Moves e := hi.2 ▸ (Parser.compositional_onlyMoves.item : item.OnlyMoves c)
      have hih := ih p hi.1
      rw [hi.2] at hih
      obtain ⟨w, s, e', hw, hread, hend⟩ :=
        hih (hmoves.skip_eq.trans hskip) (hce.faithful hc) hrest
      have hfirst : item.Reads (c.splice d.location w) (p, true) (e.splice d.location w) :=
        item_reads_splice hi hed.location_le (hce.text_eq ▸ hed.text_eq ▸ hed.inText)
      refine ⟨w, s, e', hw, items_reads_iff.mpr ⟨p, Or.inr ⟨_, hfirst, hread⟩⟩, ?_⟩
      rw [hend, splice, splice, hce.text_eq]

/-- A restriction is rejected behind the keyword, or in its list. -/
theorem parser_rejects_cases (h : parser.Rejects c f d) : ∃ e, c.literal? keyword = some e ∧
    (f.cause = .listNotFound ∧ d = e ∨
      ∃ e', e.literal? ['['] = some e' ∧ Parser.Rejects ⟨items ∅⟩ e' f d) := by
  simp only [parser, Parser.rejects_noting, Parser.rejects_bind, Parser.rejects_ite,
    Parser.reads_literal, Parser.not_rejects_literal, Parser.not_rejects_pure,
    Parser.rejects_reject, false_or, and_false, exists_false, or_false] at h
  obtain ⟨b, e, ⟨rfl, hkey⟩ | ⟨rfl, -, rfl⟩, h⟩ := h
  · rw [if_pos rfl] at h
    obtain ⟨b', e', ⟨rfl, hopen⟩ | ⟨rfl, -, rfl⟩, h⟩ := h
    · rw [if_pos rfl] at h
      exact ⟨e, hkey, Or.inr ⟨e', hopen, h⟩⟩
    · rw [if_neg Bool.false_ne_true] at h
      obtain ⟨rfl, rfl⟩ := h
      exact ⟨_, hkey, Or.inl ⟨rfl, rfl⟩⟩
  · exact absurd h (by simp)

/-- Behind the keyword a list of one platform completes the restriction. -/
theorem exists_parser_reads_keyword (hskip : c.skip = .blanks) (hc : c.Faithful)
    (hkey : c.literal? keyword = some d) : ∃ s e,
      parser.Reads (c.splice d.location "[ios]".toList) (among s) e ∧
        e.location = (c.splice d.location "[ios]".toList).text.length := by
  have hcd := hc.onward_of_literal? hkey
  have hdskip : d.skip = .blanks := (skip_of_literal? hkey).trans hskip
  obtain ⟨e, he, hend⟩ := exists_passes_splice hcd.inText (['['] ++ (Platform.ios.text ++ [']']))
  obtain ⟨e', hbracket, hios⟩ := he.split
  have hopen : (d.splice d.location "[ios]".toList).literal? ['['] = some e' := by
    refine literal?_of_passes_mark ?_ hbracket
    rw [skip_splice, hdskip]
    decide
  have hlist : Parser.Reads ⟨items ∅⟩ e' _ e :=
    items_reads_iff.mpr ⟨_, Or.inl ⟨item_reads_text (hbracket.skip_eq.trans hdskip) hios, rfl⟩⟩
  have hkey' := literal?_splice (z := "[ios]".toList) hkey (Nat.le_refl _)
    (hcd.text_eq ▸ hcd.inText)
  refine ⟨_, e, parser_reads_iff.mpr (Or.inr ⟨_, e', _, hkey', hopen, hlist, rfl⟩), ?_⟩
  rw [splice, ← hcd.text_eq]
  exact hend

/-- Where a restriction was rejected it can be completed to one that is read up to the end. -/
theorem exists_parser_reads_completion (hskip : c.skip = .blanks) (hc : c.Faithful)
    (h : parser.Rejects c f d) : ∃ w s e, completion f.cause = some w ∧
      parser.Reads (c.splice d.location w) (among s) e ∧
        e.location = (c.splice d.location w).text.length := by
  obtain ⟨e, hkey, ⟨hcause, rfl⟩ | ⟨e', hopen, hitems⟩⟩ := parser_rejects_cases h
  · obtain ⟨s, e, hread, hend⟩ := exists_parser_reads_keyword hskip hc hkey
    exact ⟨_, s, e, by rw [hcause, completion], hread, hend⟩
  · have hce := hc.onward_of_literal? hkey
    have hee := (hce.faithful hc).onward_of_literal? hopen
    have hfaithful := hee.faithful (hce.faithful hc)
    have heskip : e'.skip = .blanks :=
      ((skip_of_literal? hopen).trans (skip_of_literal? hkey)).trans hskip
    have hed : e'.Onward d := (Parser.compositional_onward.items _).of_rejects hfaithful hitems
    obtain ⟨w, s, e'', hw, hread, hend⟩ :=
      exists_items_reads_completion heskip hfaithful hitems
    have hle := hee.location_le
    have hle' := hed.location_le
    have htext : e'.text = c.text := hee.text_eq.trans hce.text_eq
    have hin : d.location ≤ c.text.length := htext ▸ hed.text_eq ▸ hed.inText
    have hkey' := literal?_splice (z := w) hkey (by omega) hin
    have hopen' := literal?_splice (z := w) hopen hle' (hce.text_eq ▸ hin)
    refine ⟨w, s, e'', hw, parser_reads_iff.mpr (Or.inr ⟨_, _, s, hkey', hopen', hread, rfl⟩), ?_⟩
    rw [hend, splice, splice, htext]

/-- In a text that folds singly, from a cursor in it that skips blanks on: a list that is read is
read again, up to the same place, whatever follows that place; and a list that is rejected is
rejected where the text, up to the place where the reading has stopped, can be completed to one that
is read to its end, with a list as result. -/
theorem decided_by_text_read (ht : ∀ x ∈ c.text, FoldsSingly x) (hin : c.InText)
    (hskip : c.skip = .blanks) :
    (∀ s d, parser.Reads c (among s) d → ∀ z,
      parser.Reads (c.splice d.location z) (among s) (d.splice d.location z)) ∧
    ∀ f d, parser.Rejects c f d → ∃ w s e, completion f.cause = some w ∧
      parser.Reads (c.splice d.location w) (among s) e ∧
        e.location = (c.splice d.location w).text.length := by
  have hc : c.Faithful := ⟨ht, hin⟩
  refine ⟨fun s d h z => ?_, fun f d h => exists_parser_reads_completion hskip hc h⟩
  have hcd : c.Onward d :=
    (Parser.compositional_onward.restriction (o := none) nofun).of_reads hc h
  exact parser_reads_splice hc h (Nat.le_refl _) (hcd.text_eq ▸ hcd.inText)

/-- A list in front of a question mark is read in front of a letter that folds to two; one with an
unknown second platform can be completed behind the comma. -/
theorem decided_by_text_read_two_lists :
    ((∀ x ∈ "v @Platforms [tvos]?".toList, FoldsSingly x) ∧
      parser.Reads (splice 19 "ß".toList { text := "v @Platforms [tvos]?".toList, location := 1 })
        (among (.ofList [.tvos]))
        (splice 19 "ß".toList { text := "v @Platforms [tvos]?".toList, location := 19 })) ∧
    ((∀ x ∈ "@platforms [ios, beos]".toList, FoldsSingly x) ∧
      ∃ w s e, completion .platformNotFound = some w ∧
        parser.Reads (splice 16 w { text := "@platforms [ios, beos]".toList }) (among s) e ∧
          e.location = (splice 16 w { text := "@platforms [ios, beos]".toList }).text.length) := by
  have htvos : ∀ x ∈ "v @Platforms [tvos]?".toList, FoldsSingly x := forall_mem_of_all (by decide)
  have hbeos : ∀ x ∈ "@platforms [ios, beos]".toList, FoldsSingly x :=
    forall_mem_of_all (by decide)
  have hreads : parser.Reads { text := "v @Platforms [tvos]?".toList, location := 1 }
      (among (.ofList [.tvos])) { text := "v @Platforms [tvos]?".toList, location := 19 } := by
    constructor <;> decide +kernel
  have hrejects : parser.Rejects { text := "@platforms [ios, beos]".toList }
      { cause := .platformNotFound, line := some "@platforms [ios, beos]".toList }
      { text := "@platforms [ios, beos]".toList, location := 16 } := by
    constructor <;> decide +kernel
  refine ⟨⟨htvos, ?_⟩, hbeos, ?_⟩
  · exact (decided_by_text_read htvos (by decide) rfl).1 _ _ hreads _
  · exact (decided_by_text_read hbeos (by decide) rfl).2 _ _ hrejects

end PlatformRestriction

end DependencyClause
