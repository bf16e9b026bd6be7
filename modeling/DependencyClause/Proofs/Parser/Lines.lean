import DependencyClause.Proofs.Cursor.Line
import DependencyClause.Proofs.Parser.Faults
import DependencyClause.Proofs.Parser.Rejects
import DependencyClause.Proofs.Parser.Settings
import DependencyClause.Version.Reading

/-!
# The line that a rejection quotes

A rejection quotes the line that holds the cursor where it arises, and passes through the layers
around it as it is. No layer moves the cursor on the way out, so the line is the one in which the
reading has stopped, however deep the rejection arose and whatever was restored behind it.
-/

namespace DependencyClause

open Text Cursor

variable {c d : Cursor} {f : Failure}

namespace Parser

variable {α β : Type} {p : Parser α}

/-- Where the parser rejects the text, it quotes the line that holds the cursor as it leaves it. -/
def QuotesLine (p : Parser α) (c : Cursor) : Prop :=
  ∀ f d, p.Rejects c f d → f.line = some d.currentLine

/-- A parser that rejects nothing quotes no line. -/
theorem quotesLine_of_not_rejects (h : ∀ f d, ¬ p.Rejects c f d) : p.QuotesLine c :=
  fun f d hr => absurd hr (h f d)

theorem quotesLine_reject (cause : Cause) : (reject cause : Parser α).QuotesLine c := by
  intro f d h
  obtain ⟨rfl, rfl⟩ := rejects_reject.mp h
  rfl

/-- A sequence quotes the line that the part quotes which rejects the text. -/
theorem quotesLine_bind {q : α → Parser β} (hp : p.QuotesLine c)
    (hq : ∀ a, (p.run c).outcome = .value a → (q a).QuotesLine (p.run c).cursor) :
    (p >>= q).QuotesLine c := by
  intro f d h
  rcases rejects_bind.mp h with h | ⟨a, e, ha, h⟩
  · exact hp f d h
  · rw [← ha.2] at h
    exact hq a ha.1 f d h

/-- The line does not depend on whether case counts. -/
theorem quotesLine_withCase {b : Bool} (hp : p.QuotesLine { c with caseSensitive := b }) :
    (withCase b p).QuotesLine c := by
  intro f d h
  obtain ⟨e, he, rfl⟩ := rejects_withCase.mp h
  exact hp f e he

/-- Nor on what is skipped. -/
theorem quotesLine_skipping {k : CharSet} (hp : p.QuotesLine { c with skip := k }) :
    (skipping k p).QuotesLine c := by
  intro f d h
  obtain ⟨e, he, rfl⟩ := rejects_skipping.mp h
  exact hp f e he

theorem not_rejects_bareVersion [VersionLibrary] :
    ¬ VersionConstraint.bareVersion.Rejects c f d := by
  rw [Rejects, VersionConstraint.run_bareVersion]
  cases VersionConstraint.bare? c with
  | none => simp
  | some found => simp

/-- A bare pin is rejected with the cursor back where it was. -/
theorem quotesLine_barePin : Pin.bare.QuotesLine c := by
  intro f d h
  rw [Rejects, Pin.run_bare] at h
  cases hb : Pin.bare? c with
  | some found => simp [hb] at h
  | none =>
    rw [hb] at h
    dsimp only at h
    split at h
    · obtain ⟨hf, rfl⟩ := h
      obtain rfl := Outcome.rejected.inj hf
      rfl
    · exact absurd h.1 (by simp)

/-- Quoting the line where the cursor is left is compositional. -/
theorem compositional_quotesLine : Compositional fun _ => QuotesLine where
  pure _ _ := quotesLine_of_not_rejects fun _ _ => not_rejects_pure
  reject _ _ _ := quotesLine_reject _
  literal _ _ := quotesLine_of_not_rejects fun _ _ => not_rejects_literal
  atEnd _ := quotesLine_of_not_rejects fun _ _ => not_rejects_atEnd
  choose? _ _ := quotesLine_of_not_rejects fun _ _ => not_rejects_scan
  run? _ _ := quotesLine_of_not_rejects fun _ _ => not_rejects_scan
  upTo? _ _ := quotesLine_of_not_rejects fun _ _ => not_rejects_scan
  bareVersion _ := quotesLine_of_not_rejects fun _ _ => not_rejects_bareVersion
  bind := quotesLine_bind
  withCase _ := quotesLine_withCase
  skipping _ := quotesLine_skipping
  noting _ _ hp f d h := hp f d (rejects_noting.mp h)

end Parser

namespace Target

/-- Wherever the cursor lies and however the reading ends, the text and the settings of the cursor
are what they were; and a rejection quotes the line that holds the cursor as it is left. -/
theorem settings_kept_and_line_quoted [VersionLibrary] (t : Target) (c : Cursor) :
    ((t.parser.run c).cursor.text = c.text ∧
      (t.parser.run c).cursor.caseSensitive = c.caseSensitive ∧
      (t.parser.run c).cursor.skip = c.skip) ∧
    ∀ f, (t.parser.run c).outcome = .rejected f →
      f.line = some (t.parser.run c).cursor.currentLine := by
  constructor
  · have hmoves : c.Moves (t.parser.run c).cursor := t.parser_onlyMoves
    rw [hmoves]
    exact ⟨rfl, rfl, rfl⟩
  · intro f hf
    have hquotes : t.parser.QuotesLine c :=
      Parser.compositional_quotesLine.target t fun _ => Parser.quotesLine_barePin
    exact hquotes f _ ⟨hf, rfl⟩

/-- A list that breaks off in the second of three lines, after a pin and behind a comma: the layer
of a single platform rejects what follows, and the line that it quotes is the second one. -/
theorem settings_kept_and_line_quoted_second_line :
    (resolvedPin.parser.run
        { text := "main @platforms\n[ios,\n beos]".toList, caseSensitive := true }).outcome =
      .rejected { cause := .platformNotFound, line := some "[ios,".toList } ∧
    (resolvedPin.parser.run
        { text := "main @platforms\n[ios,\n beos]".toList, caseSensitive := true }
      ).cursor.currentLine = "[ios,".toList ∧
    (resolvedPin.parser.run
        { text := "main @platforms\n[ios,\n beos]".toList, caseSensitive := true }
      ).cursor.caseSensitive = true := by
  have hrejected : (resolvedPin.parser.run
      { text := "main @platforms\n[ios,\n beos]".toList, caseSensitive := true }).outcome =
      .rejected { cause := .platformNotFound, line := some "[ios,".toList } := by decide +kernel
  obtain ⟨⟨-, hcase, -⟩, hline⟩ := settings_kept_and_line_quoted resolvedPin
    { text := "main @platforms\n[ios,\n beos]".toList, caseSensitive := true }
  exact ⟨hrejected, (Option.some.inj (hline _ hrejected)).symm, hcase⟩

end Target

/-- A line that is quoted is the line of the text that holds the place where the reading stopped. -/
theorem Parser.QuotesLine.isLineAt {α : Type} {p : Parser α} (hq : p.QuotesLine c)
    (hm : p.OnlyMoves c) (h : p.Rejects c f d) :
    ∃ l, f.line = some l ∧ IsLineAt c.text d.location l := by
  have hmoves : c.Moves d := h.2 ▸ hm
  have htext : d.text = c.text := by rw [hmoves]
  have hline := d.isLineAt_iff_eq_currentLine.mpr rfl
  rw [htext] at hline
  exact ⟨_, hq f d h, hline⟩

/-- The cursor's line is the one line of the text that holds the location, wherever that lies. Where
a target or a whole clause is rejected, the line that is quoted is the one that holds the place
where the reading stopped. -/
theorem currentLine_holds_cursor [VersionLibrary] :
    (∀ c : Cursor, IsLineAt c.text c.location c.currentLine ∧
      ∀ l, IsLineAt c.text c.location l → l = c.currentLine) ∧
    (∀ (t : Target) (c : Cursor) (f : Failure), (t.parser.run c).outcome = .rejected f →
      ∃ l, f.line = some l ∧ IsLineAt c.text (t.parser.run c).cursor.location l) ∧
    ∀ (s : List Char) (f : Failure), (Clause.read s).outcome = .rejected f →
      ∃ l, f.line = some l ∧ IsLineAt s (Clause.read s).cursor.location l := by
  refine ⟨fun c => ?_, fun t c f hf => ?_, fun s f hf => ?_⟩
  · have hiff := fun l => c.isLineAt_iff_eq_currentLine (l := l)
    exact ⟨(hiff _).mpr rfl, fun l => (hiff l).mp⟩
  · have hquotes : t.parser.QuotesLine c :=
      Parser.compositional_quotesLine.target t fun _ => Parser.quotesLine_barePin
    exact hquotes.isLineAt t.parser_onlyMoves ⟨hf, rfl⟩
  · have hquotes : Clause.complete.QuotesLine { text := s } :=
      Parser.compositional_quotesLine.complete
    exact hquotes.isLineAt Parser.compositional_onlyMoves.complete
      (Parser.rejects_noting.mp ⟨hf, rfl⟩)

/-- Past the end of the text the cursor is held by the last line, here an empty one. Where no
bracket follows the keyword of a list the cursor is on the line feed, and the line in front of it is
quoted. -/
theorem currentLine_holds_cursor_linefeed :
    IsLineAt "== 1\n".toList 9 [] ∧
    (Clause.read "@platforms\nios".toList).outcome =
      .rejected { cause := .listNotFound, line := some "@platforms".toList } ∧
    IsLineAt "@platforms\nios".toList 10 "@platforms".toList := by
  have hrejected : (Clause.read "@platforms\nios".toList).outcome =
      .rejected { cause := .listNotFound, line := some "@platforms".toList } := by
    decide +kernel
  have hstop : (Clause.read "@platforms\nios".toList).cursor.location = 10 := by
    decide +kernel
  obtain ⟨hcurrent, -, hread⟩ := currentLine_holds_cursor
  obtain ⟨l, hl, hline⟩ := hread _ _ hrejected
  obtain rfl := Option.some.inj hl
  exact ⟨(hcurrent { text := "== 1\n".toList, location := 9 }).1, hrejected, hstop ▸ hline⟩

end DependencyClause
