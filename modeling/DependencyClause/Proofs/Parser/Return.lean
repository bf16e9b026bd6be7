import DependencyClause.Constraint
import DependencyClause.Pin
import DependencyClause.Proofs.Cursor.Scan

/-!
# Parsers that put the cursor back

A bare version and a bare pin are sought by a run of characters; where the run will not do, the
cursor is put back to where it was. A run is found only within the text, so a bare version never
asks for a location outside it. A bare pin does so exactly where the cursor is past the end already.
-/

namespace DependencyClause

open Text Cursor

variable {c d : Cursor}

/-- Where something is passed over the cursor lies in its text. -/
theorem Cursor.Passes.inText_of_ne_nil {s : List Char} (h : c.Passes s d) (hs : s ≠ []) :
    c.InText := by
  have hlen := congrArg List.length h.remaining_eq
  have hpos : 0 < s.length := List.length_pos_iff.mpr hs
  rw [remaining, List.length_drop, List.length_append] at hlen
  unfold InText
  omega

/-- A run is found only by a cursor in its text. -/
theorem Cursor.inText_of_runWhile? {p : Char → Bool} {t : List Char}
    (h : c.runWhile? p = some (t, d)) : c.InText := by
  obtain ⟨hp, hne, -⟩ := runWhile?_eq_some_iff.mp h
  exact hp.inText_of_ne_nil (List.append_ne_nil_of_right_ne_nil _ hne)

/-- A run that is found can be taken back. -/
theorem Cursor.moveTo_back_of_runWhile? {p : Char → Bool} {t : List Char}
    (h : c.runWhile? p = some (t, d)) : d.moveTo c.location = .ok c :=
  (runWhile?_eq_some_iff.mp h).1.moveTo_back (inText_of_runWhile? h)

/-- A cursor past the end of its text cannot be put where it is. -/
theorem Cursor.moveTo_location_of_not_inText (h : ¬ c.InText) :
    c.moveTo c.location = .error ⟨c.location⟩ := by
  rw [moveTo, if_neg]
  rintro ⟨-, hle⟩
  exact h (Int.ofNat_le.mp hle)

namespace VersionConstraint

variable [VersionLibrary]

/-- The bare version that lies ahead, and the cursor behind it. -/
def bare? (c : Cursor) : Option (Version × Cursor) :=
  (c.run? .versionCharacters).bind fun r => (Version.ofTag? r.1).map (·, r.2)

/-- A bare version is read wherever the cursor lies; where there is none the cursor stays. -/
theorem run_bareVersion (c : Cursor) : bareVersion.run c =
    match bare? c with
    | some (v, d) => { outcome := .value (comparison .exactly v), cursor := d }
    | none => { outcome := .value any, cursor := c } := by
  cases hr : c.run? .versionCharacters with
  | none =>
    simp only [bareVersion, bare?, Parser.run_bind, Parser.location, Parser.scan, hr,
      Parsed.andThen_value, Option.bind_none]
    rfl
  | some found =>
    obtain ⟨t, d⟩ := found
    simp only [bareVersion, bare?, Parser.run_bind, Parser.location, Parser.scan, hr,
      Parsed.andThen_value, Option.bind_some]
    cases hv : Version.ofTag? t with
    | none =>
      have hback := moveTo_back_of_runWhile? hr
      simp only [Parser.run_bind, Parser.moveTo, hback, Parsed.andThen_value]
      rfl
    | some v => rfl

end VersionConstraint

namespace Pin

/-- The bare pin that lies ahead, and the cursor behind it. -/
def bare? (c : Cursor) : Option (Pin × Cursor) :=
  (c.runUpTo? .blanks).bind fun r => if startsReserved r.1 then none else some (⟨r.1⟩, r.2)

/-- Where there is no bare pin the cursor stays: the text is rejected, unless the cursor is past its
end. -/
theorem run_bare (c : Cursor) : bare.run c =
    match bare? c with
    | some (p, d) => { outcome := .value p, cursor := d }
    | none =>
      if c.InText then
        { outcome := .rejected { cause := .pinExpected, line := some c.currentLine }, cursor := c }
      else { outcome := .fault ⟨c.location⟩, cursor := c } := by
  cases hr : c.runUpTo? .blanks with
  | none =>
    simp only [bare, bare?, Parser.run_bind, Parser.location, Parser.scan, hr,
      Parsed.andThen_value, Option.bind_none, Option.filter_none, Parser.moveTo]
    by_cases hin : c.InText
    · rw [if_pos hin, (Passes.refl c).moveTo_back hin]
      rfl
    · rw [if_neg hin, moveTo_location_of_not_inText hin]
      rfl
  | some found =>
    obtain ⟨t, d⟩ := found
    simp only [bare, bare?, Parser.run_bind, Parser.location, Parser.scan, hr,
      Parsed.andThen_value, Option.bind_some, if_pos (inText_of_runWhile? hr)]
    cases hs : startsReserved t with
    | true =>
      simp only [Option.filter, hs, Bool.not_true, Bool.false_eq_true, if_false, if_true,
        Parser.run_bind, Parser.moveTo, moveTo_back_of_runWhile? hr, Parsed.andThen_value]
      rfl
    | false =>
      simp only [Option.filter, hs]
      rfl

end Pin

end DependencyClause
