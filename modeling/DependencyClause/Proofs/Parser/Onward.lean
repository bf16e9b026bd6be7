import DependencyClause.Proofs.Cursor.Onward
import DependencyClause.Proofs.Parser.Compositional
import DependencyClause.Proofs.Parser.Return

/-!
# Parsers lead onward

In a text that folds singly no parser moves the cursor back or past the end, however it ends. The
two parsers that put the cursor back do so to where they found it.
-/

namespace DependencyClause

open Text Cursor

namespace Parser

variable {α β : Type} {p : Parser α} {c : Cursor}

/-- However the parser ends in a text that folds singly, it leaves the cursor no further back, and
within the text. -/
def Onward (p : Parser α) (c : Cursor) : Prop := c.Faithful → c.Onward (p.run c).cursor

/-- A sequence leads onward if its parts do. -/
theorem onward_bind {f : α → Parser β} (hp : p.Onward c)
    (hf : ∀ a, (p.run c).outcome = .value a → (f a).Onward (p.run c).cursor) :
    (p >>= f).Onward c := by
  intro hc
  have hfirst := hp hc
  rw [run_bind, Parsed.andThen]
  cases ho : (p.run c).outcome with
  | value a => exact hfirst.trans (hf a ho (hfirst.faithful hc))
  | rejected f => exact hfirst
  | fault e => exact hfirst

/-- A scan leads onward if what it finds has been passed over. -/
theorem onward_scan {find? : Cursor → Option (α × Cursor)}
    (h : ∀ {a d}, c.Faithful → find? c = some (a, d) → ∃ s, c.Passes s d) :
    (scan find?).Onward c := by
  intro hc
  cases hf : find? c with
  | none =>
    simp only [scan, hf]
    exact .refl hc.inText
  | some found =>
    obtain ⟨a, d⟩ := found
    obtain ⟨s, hs⟩ := h hc hf
    simp only [scan, hf]
    exact hs.onward hc.inText

theorem onward_literal (l : List Char) : (literal l).Onward c := by
  intro hc
  cases hl : c.literal? l with
  | none =>
    rw [run_literal_of_none hl]
    exact .refl hc.inText
  | some d =>
    rw [run_literal_of_some hl]
    exact hc.onward_of_literal? hl

theorem onward_bareVersion [VersionLibrary] : VersionConstraint.bareVersion.Onward c := by
  intro hc
  rw [VersionConstraint.run_bareVersion]
  cases hb : VersionConstraint.bare? c with
  | none => exact .refl hc.inText
  | some found =>
    obtain ⟨v, d⟩ := found
    obtain ⟨⟨t, d⟩, hrun, hv⟩ := Option.bind_eq_some_iff.mp hb
    obtain ⟨v, -, rfl, rfl⟩ := Option.map_eq_some_iff.mp hv
    exact (run?_eq_some_iff.mp hrun).1.onward hc.inText

theorem onward_barePin : Pin.bare.Onward c := by
  intro hc
  rw [Pin.run_bare]
  cases hb : Pin.bare? c with
  | none =>
    simp only [if_pos hc.inText]
    exact .refl hc.inText
  | some found =>
    obtain ⟨p, d⟩ := found
    obtain ⟨⟨t, d⟩, hrun, hp⟩ := Option.bind_eq_some_iff.mp hb
    have hd := (runWhile?_eq_some_iff.mp hrun).1.onward hc.inText
    split at hp
    · exact absurd hp nofun
    · obtain ⟨rfl, rfl⟩ := Option.some.inj hp
      exact hd

/-- Leading onward is compositional. -/
theorem compositional_onward : Compositional fun _ => Parser.Onward where
  pure _ _ hc := .refl hc.inText
  reject _ _ _ hc := .refl hc.inText
  literal l _ := onward_literal l
  atEnd _ hc := .refl hc.inText
  choose? spellings _ := onward_scan fun hc h => by
    obtain ⟨s, hs⟩ := hc.exists_passes_of_choose? h
    exact ⟨_, hs⟩
  run? k _ := onward_scan fun _ h => ⟨_, (run?_eq_some_iff.mp h).1⟩
  upTo? l _ := onward_scan fun hc h => ⟨_, hc.passes_of_upTo? h⟩
  bareVersion _ := onward_bareVersion
  bind := onward_bind
  withCase b hp hc := by
    have h := hp ⟨hc.foldsSingly, hc.inText⟩
    exact ⟨h.text_eq, h.location_le, h.inText⟩
  skipping k hp hc := by
    have h := hp ⟨hc.foldsSingly, hc.inText⟩
    exact ⟨h.text_eq, h.location_le, h.inText⟩
  noting _ _ hp hc := by
    have h := hp hc
    simp only [noting]
    split
    · exact h
    · exact h

end Parser

/-- Reading a target leads onward. -/
theorem Target.parser_onward [VersionLibrary] (t : Target) {c : Cursor} : t.parser.Onward c :=
  Parser.compositional_onward.target t fun _ => Parser.onward_barePin

end DependencyClause
