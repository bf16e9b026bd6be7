import DependencyClause.Proofs.Grammar.Platforms
import DependencyClause.Proofs.Parser.Settings

/-!
# How a list of platforms comes to an end

Reading a list goes round by round: a round reads a platform and a comma, and another platform is
sought behind it. A platform may be matched beyond the end of the text, but no comma and no bracket
is found there. So every round moves the cursor ahead by four characters at least and leaves it in
the text, whatever is skipped and whether or not case counts, and there are only so many rounds.
-/

namespace DependencyClause

open Text Cursor

/-- No spelling of a platform has less than three characters. -/
theorem Platform.three_le_length {p : Platform} {s : List Char} (h : s ∈ p.spellings) :
    3 ≤ s.length := by
  have hall : ∀ s ∈ p.spellings, 3 ≤ s.length := by cases p <;> decide
  exact hall s h

/-- A platform that is read moves the cursor ahead by the length of a spelling. -/
theorem Platform.location_add_three_le {p : Platform} {c d : Cursor}
    (h : Platform.parser.Reads c p d) : c.location + 3 ≤ d.location := by
  obtain ⟨s, hs, e, he, rfl⟩ := find?_eq_some_iff.mp (parser_reads_iff_find?.mp h)
  have hlen := three_le_length hs
  have hstart : c.location ≤ _ := location_le_start { c with caseSensitive := false }
  rw [literal?_eq he]
  exact Nat.add_le_add hstart hlen

namespace PlatformRestriction

variable {c d e : Cursor} {n : Nat} {p : Platform} {found s : PlatformSet}

/-- From `c` on a platform and a comma are read, and another platform is sought from `d` on. -/
def Round (c d : Cursor) : Prop := ∃ p, item.Reads c (p, true) d

/-- What one round does to the cursor. -/
structure Advances (c d : Cursor) : Prop where
  /-- The text is the same. -/
  text_eq : d.text = c.text
  /-- The cursor moves ahead by a platform of three characters at least, and a comma. -/
  location_le : c.location + 4 ≤ d.location
  /-- The comma lies in the text. -/
  inText : d.InText

theorem Round.advances (h : Round c d) : Advances c d := by
  obtain ⟨p, hi⟩ := h
  have hitem := location_lt_of_item hi.1
  rw [hi.2] at hitem
  obtain ⟨htext, -, hin⟩ := hitem
  refine ⟨htext, ?_, by rwa [InText, htext]⟩
  obtain ⟨e, hp, ⟨hfalse, -⟩ | ⟨-, -, hcomma⟩⟩ := item_reads_iff.mp hi
  · exact absurd hfalse nofun
  · have hplatform := Platform.location_add_three_le hp
    have hlt := location_lt_of_literal? hcomma
    omega

/-- Every round leaves less of the text ahead. -/
theorem Round.measure_lt (h : Round c d) :
    d.text.length - d.location < c.text.length - c.location := by
  obtain ⟨p, hi⟩ := h
  have hlt := measure_lt_of_item hi.1
  rwa [hi.2] at hlt

/-- From `c` to `d` there are `n` rounds, one behind the other. -/
inductive Rounds : Nat → Cursor → Cursor → Prop where
  /-- No round. -/
  | none (c : Cursor) : Rounds 0 c c
  /-- A round and those behind it. -/
  | round {n : Nat} {c d e : Cursor} (h : Round c d) (hs : Rounds n d e) : Rounds (n + 1) c e

/-- The rounds take four characters each. -/
theorem Rounds.four_mul_le (h : Rounds n c d) : 4 * n ≤ c.text.length - c.location := by
  induction h with
  | none c => omega
  | round h hs ih =>
    have hadv := h.advances
    have hloc := hadv.location_le
    have hin : _ ≤ _ := hadv.inText
    rw [hadv.text_eq] at hin ih
    omega

/-- Behind a round the list is the list from there on. -/
theorem cursor_items_of_reads (h : item.Reads c (p, true) d) :
    (items found c).cursor = (items (found.insert p) d).cursor := by
  have hrun := congrArg (fun q : Parser PlatformSet => (q.run c).cursor) (items_eq found)
  simp only [Parser.run_bind, Parsed.andThen, h.1, h.2] at hrun
  exact hrun

/-- Without a round the list ends with the item. -/
theorem cursor_items_of_no_round (h : ∀ d, ¬ Round c d) :
    (items found c).cursor = (item.run c).cursor := by
  have hrun := congrArg (fun q : Parser PlatformSet => (q.run c).cursor) (items_eq found)
  simp only [Parser.run_bind, Parsed.andThen] at hrun
  cases ho : (item.run c).outcome with
  | value a =>
    obtain ⟨p, more⟩ := a
    cases more with
    | false =>
      simp only [ho, Bool.false_eq_true, if_false, Parser.run_pure] at hrun
      exact hrun
    | true => exact absurd ⟨p, ho, rfl⟩ (h _)
  | rejected f => simpa only [ho] using hrun
  | fault e => simpa only [ho] using hrun

/-- Every list comes to an end: behind some rounds there is an item that no other one follows. -/
theorem exists_last_item (found : PlatformSet) (c : Cursor) : ∃ n d, Rounds n c d ∧
    (∀ e, ¬ Round d e) ∧ (items found c).cursor = (item.run d).cursor := by
  induction found, c using items_induction with
  | step found c ih =>
    by_cases h : ∃ d, Round c d
    · obtain ⟨d, p, hi⟩ := h
      obtain ⟨n, e, hrounds, hlast, hend⟩ := ih p hi.1
      rw [hi.2] at hrounds hend
      exact ⟨n + 1, e, .round ⟨p, hi⟩ hrounds, hlast, (cursor_items_of_reads hi).trans hend⟩
    · have hnone := not_exists.mp h
      exact ⟨0, c, .none c, hnone, cursor_items_of_no_round hnone⟩

/-- A list that is read ends with a bracket, which lies in the text. -/
theorem inText_of_items_reads (h : Parser.Reads ⟨items found⟩ c s d) : d.InText := by
  induction found, c using items_induction with
  | step found c ih =>
    obtain ⟨p, ⟨hi, -⟩ | ⟨e, hi, hrest⟩⟩ := items_reads_iff.mp h
    · obtain ⟨e, -, ⟨-, hbracket⟩ | ⟨htrue, -⟩⟩ := item_reads_iff.mp hi
      · exact location_le_of_literal? hbracket
      · exact absurd htrue nofun
    · have hih := ih p hi.1
      rw [hi.2] at hih
      exact hih hrest

/-- A platform can be matched beyond the end of the text, where a ligature completes its name. -/
theorem exists_platform_past_end :
    ∃ c p d, c.InText ∧ Platform.parser.Reads c p d ∧ ¬ d.InText := by
  refine ⟨{ text := "maccatalyﬆ".toList }, .maccatalyst,
    { text := "maccatalyﬆ".toList, location := 11 }, by decide, ⟨?_, ?_⟩, by decide⟩
  · decide +kernel
  · decide +kernel

/-- In every text and under every setting a round moves the cursor ahead by four characters at
least and leaves it in the text, though a platform alone may be matched beyond the end; so what lies
ahead gets less with every round, and every list ends, after so many rounds as there is room for. A
list that is read leaves the cursor in the text. -/
theorem rounds_come_to_an_end :
    (∀ c d, Round c d → d.text = c.text ∧ c.location + 4 ≤ d.location ∧
      d.location ≤ c.text.length ∧ d.text.length - d.location < c.text.length - c.location) ∧
    (∀ found c, ∃ n d, Rounds n c d ∧ (∀ e, ¬ Round d e) ∧
      (items found c).cursor = (item.run d).cursor ∧ 4 * n ≤ c.text.length - c.location) ∧
    (∃ c p d, c.InText ∧ Platform.parser.Reads c p d ∧ ¬ d.InText) ∧
    ∀ c s d, parser.Reads c (among s) d → d.location ≤ c.text.length := by
  refine ⟨fun c d h => ?_, fun found c => ?_, exists_platform_past_end, fun c s d h => ?_⟩
  · have hadv := h.advances
    exact ⟨hadv.text_eq, hadv.location_le, hadv.text_eq ▸ hadv.inText, h.measure_lt⟩
  · obtain ⟨n, d, hrounds, hlast, hend⟩ := exists_last_item found c
    exact ⟨n, d, hrounds, hlast, hend, hrounds.four_mul_le⟩
  · rcases parser_reads_iff.mp h with ⟨-, hnone, -⟩ | ⟨e, e', s', -, -, hitems, -⟩
    · exact absurd hnone nofun
    · have hmoves : c.Moves d :=
        h.2 ▸ (Parser.compositional_onlyMoves.restriction (o := none) nofun : parser.OnlyMoves c)
      have hin := inText_of_items_reads hitems
      rwa [hmoves] at hin

/-- A letter of the names is skipped between the parts of a list, and a long letter stands for a
short one: the first item is a round, and the list ends in the text. -/
theorem rounds_come_to_an_end_skipped_letter :
    Round { text := "ioſm,mtvos]".toList, skip := .ofList ['m'] }
        { text := "ioſm,mtvos]".toList, location := 5, skip := .ofList ['m'] } ∧
    (0 + 4 ≤ 5 ∧ 5 ≤ "ioſm,mtvos]".toList.length) ∧
    parser.Reads { text := "@platforms[ioſ,TVOS]".toList } (among (.ofList [.tvos, .ios]))
        { text := "@platforms[ioſ,TVOS]".toList, location := 20 } ∧
    20 ≤ "@platforms[ioſ,TVOS]".toList.length := by
  have hround : Round { text := "ioſm,mtvos]".toList, skip := .ofList ['m'] }
      { text := "ioſm,mtvos]".toList, location := 5, skip := .ofList ['m'] } :=
    ⟨.ios, by decide +kernel, by decide +kernel⟩
  have hread : parser.Reads { text := "@platforms[ioſ,TVOS]".toList }
      (among (.ofList [.tvos, .ios]))
      { text := "@platforms[ioſ,TVOS]".toList, location := 20 } :=
    ⟨by decide +kernel, by decide +kernel⟩
  obtain ⟨hstep, -, -, hend⟩ := rounds_come_to_an_end
  obtain ⟨-, hahead, hin, -⟩ := hstep _ _ hround
  exact ⟨hround, ⟨hahead, hin⟩, hread, hend _ _ _ hread⟩

end PlatformRestriction

end DependencyClause
