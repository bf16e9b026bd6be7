import DependencyClause.Proofs.Grammar.Tokens
import DependencyClause.Proofs.Parser.Compositional
import DependencyClause.Proofs.Parser.Return
import DependencyClause.Version.Reading

/-!
# When parsers fault

A fault is a location outside the text that was asked for. From a cursor within its text no parser
faults, whatever is skipped and whether or not case counts: every text is read or rejected. A cursor
can come to lie past the end, where a folding shortens what a literal matches; from there the two
parsers that read a pin fault and leave the cursor alone, and the other ones still do not fault.
-/

namespace DependencyClause

open Text Cursor

variable {c : Cursor}

namespace Parser

variable {α : Type}

/-- The parser asks for no location outside the text. -/
def Faultless (p : Parser α) (c : Cursor) : Prop := ∀ e, (p.run c).outcome ≠ .fault e

theorem faultless_scan (find? : Cursor → Option (α × Cursor)) : (scan find?).Faultless c := by
  intro e
  cases h : find? c with
  | none => simp [scan, h]
  | some found => simp [scan, h]

theorem faultless_literal (l : List Char) : (literal l).Faultless c := by
  intro e
  cases h : c.literal? l with
  | none => simp [run_literal_of_none h]
  | some d => simp [run_literal_of_some h]

/-- A sequence is faultless if its parts are. -/
theorem faultless_bind {β : Type} {p : Parser α} {f : α → Parser β} (hp : p.Faultless c)
    (hf : ∀ a, (p.run c).outcome = .value a → (f a).Faultless (p.run c).cursor) :
    (p >>= f).Faultless c := by
  intro e
  rw [run_bind, Parsed.andThen]
  cases ho : (p.run c).outcome with
  | value a => exact hf a ho e
  | rejected f =>
    intro h
    cases h
  | fault e' => exact absurd ho (hp e')

theorem faultless_noting {p : Parser α} {event : Cursor → Cause → Event} (hp : p.Faultless c) :
    (noting event p).Faultless c := by
  intro e
  simp only [noting]
  split
  · next f hf =>
    intro h
    cases hf.symm.trans h
  · exact hp e

/-- A bare version is put back only to where it was found, within the text. -/
theorem faultless_bareVersion [VersionLibrary] : VersionConstraint.bareVersion.Faultless c := by
  intro e
  rw [VersionConstraint.run_bareVersion]
  cases VersionConstraint.bare? c with
  | none => exact nofun
  | some found => exact nofun

/-- Faultlessness is compositional. -/
theorem compositional_faultless : Compositional fun _ => Faultless where
  pure _ _ _ := nofun
  reject _ _ _ _ := nofun
  literal l _ := faultless_literal l
  atEnd _ _ := nofun
  choose? _ _ := faultless_scan _
  run? _ _ := faultless_scan _
  upTo? _ _ := faultless_scan _
  bareVersion _ := faultless_bareVersion
  bind := faultless_bind
  withCase _ hp := hp
  skipping _ hp := hp
  noting _ _ hp := faultless_noting hp

end Parser

namespace Pin

theorem faultless_bare (hc : c.InText) : bare.Faultless c := by
  intro e
  rw [run_bare, if_pos hc]
  cases bare? c with
  | none => exact nofun
  | some found => exact nofun

/-- Past the end of its text the cursor cannot be put back to where it is. -/
theorem run_parser_of_not_inText (hc : ¬ c.InText) :
    parser.run c = { outcome := .fault ⟨c.location⟩, cursor := c } := by
  have hmark : c.literal? ['"'] = none := by
    cases h : c.literal? ['"'] with
    | none => rfl
    | some d => exact absurd (inText_of_literal? h) hc
  have hbare : bare? c = none := by
    cases h : c.runUpTo? .blanks with
    | none => rw [bare?, h, Option.bind_none]
    | some found => exact absurd (inText_of_runWhile? h) hc
  rw [parser, Parser.run_bind, Parser.run_literal_of_none hmark, Parsed.andThen_value,
    if_neg Bool.false_ne_true, run_bare, hbare]
  simp only [if_neg hc, List.nil_append]

end Pin

/-- Past the end of the text a resolved pin is not read, since its pin is not. -/
theorem ResolvedPin.run_parser_of_not_inText (hc : ¬ c.InText) :
    ResolvedPin.parser.run c = { outcome := .fault ⟨c.location⟩, cursor := c } := by
  rw [parser, Parser.run_bind, Pin.run_parser_of_not_inText hc, Parsed.andThen_fault]

/-- A whole text is read as a clause without a fault. -/
theorem Clause.read_ne_fault [VersionLibrary] (t : List Char) (e : OutOfRange) :
    (read t).outcome ≠ .fault e :=
  Parser.faultless_noting Parser.compositional_faultless.complete e

namespace Target

/-- From a cursor within its text no target faults, so no whole text does; past the end of the text
the two targets that hold a pin fault and leave the cursor as it is, and the other ones do not
fault. -/
theorem faults_only_past_end [VersionLibrary] :
    (∀ (t : Target) (c : Cursor), c.InText → t.parser.Faultless c) ∧
    (∀ s : List Char, (∀ e, (Clause.read s).outcome ≠ .fault e) ∧
      ResolvedPin.parser.Faultless { text := s }) ∧
    ∀ (t : Target) (c : Cursor), ¬ c.InText →
      if t = .pin ∨ t = .resolvedPin then
        t.parser.run c = { outcome := .fault ⟨c.location⟩, cursor := c }
      else t.parser.Faultless c := by
  refine ⟨fun t c hc => ?_, fun s => ⟨Clause.read_ne_fault s, ?_⟩, fun t c hc => ?_⟩
  · exact Parser.compositional_faultless.target t fun _ => Pin.faultless_bare hc
  · exact Parser.compositional_faultless.resolvedPin (Pin.faultless_bare (inText_fresh s))
  · split
    · next ht =>
      rcases ht with rfl | rfl
      · rw [parser, Parser.run_bind, Pin.run_parser_of_not_inText hc, Parsed.andThen_fault]
      · rw [parser, Parser.run_bind, ResolvedPin.run_parser_of_not_inText hc, Parsed.andThen_fault]
    · next ht => exact Parser.compositional_faultless.target t fun h => absurd h ht

/-- A letter that folds to two is matched by two letters, which leaves the cursor past the end: a
version constraint is read from there, and a pin is not. -/
theorem faults_behind_long_letter :
    (literal? { text := "ß".toList } "ss".toList = some { text := "ß".toList, location := 2 } ∧
      ¬ InText { text := "ß".toList, location := 2 }) ∧
    Target.pin.parser.run { text := "ß".toList, location := 2 } =
      { outcome := .fault ⟨2⟩, cursor := { text := "ß".toList, location := 2 } } ∧
    Target.constraint.parser.Faultless { text := "ß".toList, location := 2 } ∧
    Target.pin.parser.Faultless { text := "ß".toList, location := 1 } := by
  have hpast : ¬ InText { text := "ß".toList, location := 2 } := by decide
  obtain ⟨hin, -, hout⟩ := faults_only_past_end
  refine ⟨⟨by decide +kernel, hpast⟩, ?_, ?_, hin .pin _ (by decide)⟩
  · simpa using hout .pin _ hpast
  · simpa using hout .constraint _ hpast

end Target

end DependencyClause
