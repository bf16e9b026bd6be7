import DependencyClause.Proofs.Parser.Compositional
import DependencyClause.Proofs.Parser.Return

/-!
# Parsers change nothing but the location

However a parser ends and wherever the cursor lies, the text and the settings of the cursor are
afterwards what they were before, even where they were changed on the way.
-/

namespace DependencyClause

open Text Cursor

variable {c d e : Cursor}

/-- The second cursor differs from the first one in its location at most. -/
def Cursor.Moves (c d : Cursor) : Prop := d = { c with location := d.location }

namespace Cursor.Moves

theorem refl (c : Cursor) : c.Moves c := rfl

theorem trans (h : c.Moves d) (h' : d.Moves e) : c.Moves e := by
  rw [Moves] at h h'
  rw [Moves, h', h]

theorem skip_eq (h : c.Moves d) : d.skip = c.skip := by rw [h]

end Cursor.Moves

/-- A run that is found lies behind what is skipped. -/
theorem Cursor.moves_of_runWhile? {p : Char → Bool} {t : List Char}
    (h : c.runWhile? p = some (t, d)) : c.Moves d := by
  rw [Moves, (runWhile?_eq_some_iff.mp h).1.moved]

/-- So does a spelling that is found. -/
theorem Cursor.moves_of_choose? {α : Type} {l : List (List Char × α)} {a : α}
    (h : c.choose? l = some (a, d)) : c.Moves d := by
  obtain ⟨s, -, hs⟩ := exists_literal?_of_choose? h
  rw [Moves, literal?_eq hs]

namespace Parser

variable {α β : Type}

/-- The parser changes the location of the cursor at most. -/
def OnlyMoves (p : Parser α) (c : Cursor) : Prop := c.Moves (p.run c).cursor

/-- A scan only moves if all that it finds is elsewhere in the same text. -/
theorem onlyMoves_scan {find? : Cursor → Option (α × Cursor)}
    (h : ∀ {a d}, find? c = some (a, d) → c.Moves d) : (scan find?).OnlyMoves c := by
  cases hf : find? c with
  | none =>
    simp only [OnlyMoves, scan, hf]
    exact .refl c
  | some found =>
    simp only [OnlyMoves, scan, hf]
    exact h hf

theorem onlyMoves_literal (l : List Char) : (literal l).OnlyMoves c := by
  cases hl : c.literal? l with
  | none =>
    rw [OnlyMoves, run_literal_of_none hl]
    exact .refl c
  | some d =>
    rw [OnlyMoves, run_literal_of_some hl, literal?_eq hl]
    rfl

/-- A sequence only moves if its parts do. -/
theorem onlyMoves_bind {p : Parser α} {f : α → Parser β} (hp : p.OnlyMoves c)
    (hf : ∀ a, (p.run c).outcome = .value a → (f a).OnlyMoves (p.run c).cursor) :
    (p >>= f).OnlyMoves c := by
  rw [OnlyMoves, run_bind, Parsed.andThen]
  cases ho : (p.run c).outcome with
  | value a => exact hp.trans (hf a ho)
  | rejected f => exact hp
  | fault e => exact hp

theorem onlyMoves_bareVersion [VersionLibrary] : VersionConstraint.bareVersion.OnlyMoves c := by
  rw [OnlyMoves, VersionConstraint.run_bareVersion]
  cases hb : VersionConstraint.bare? c with
  | none => exact .refl c
  | some found =>
    obtain ⟨⟨t, d⟩, hrun, hv⟩ := Option.bind_eq_some_iff.mp hb
    obtain ⟨v, -, rfl⟩ := Option.map_eq_some_iff.mp hv
    exact moves_of_runWhile? hrun

theorem onlyMoves_barePin : Pin.bare.OnlyMoves c := by
  rw [OnlyMoves, Pin.run_bare]
  cases hb : Pin.bare? c with
  | none =>
    dsimp only
    split
    · exact .refl c
    · exact .refl c
  | some found =>
    obtain ⟨⟨t, d⟩, hrun, hp⟩ := Option.bind_eq_some_iff.mp hb
    split at hp
    · exact absurd hp nofun
    · obtain rfl := Option.some.inj hp
      exact moves_of_runWhile? hrun

/-- Changing nothing but the location is compositional. -/
theorem compositional_onlyMoves : Compositional fun _ => OnlyMoves where
  pure _ c := .refl c
  reject _ _ c := .refl c
  literal l _ := onlyMoves_literal l
  atEnd c := .refl c
  choose? _ _ := onlyMoves_scan moves_of_choose?
  run? _ _ := onlyMoves_scan moves_of_runWhile?
  upTo? _ _ := onlyMoves_scan fun h => by rw [Moves, moved_of_upTo? h]
  bareVersion _ := onlyMoves_bareVersion
  bind := onlyMoves_bind
  withCase b hp := by
    simp only [OnlyMoves, Moves, withCase] at hp ⊢
    rw [hp]
  skipping k hp := by
    simp only [OnlyMoves, Moves, skipping] at hp ⊢
    rw [hp]
  noting _ _ hp := by
    simp only [OnlyMoves, noting]
    split
    · exact hp
    · exact hp

end Parser

/-- Reading a target changes nothing but the location. -/
theorem Target.parser_onlyMoves [VersionLibrary] (t : Target) {c : Cursor} : t.parser.OnlyMoves c :=
  Parser.compositional_onlyMoves.target t fun _ => Parser.onlyMoves_barePin

end DependencyClause
