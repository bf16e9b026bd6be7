import DependencyClause.Cursor.Lemmas
import DependencyClause.Parser
import DependencyClause.Text.Blank

/-!
# Platforms

The platforms that software is built for. A platform has one name and may have aliases, which count
only when a name is read: the platform is what it is however it was spelled. It is read from any of
its spellings, whatever their case and whether or not the cursor minds case elsewhere.
-/

namespace DependencyClause

open Text

/-- A platform that software is built for. -/
inductive Platform where
  | macos
  | ios
  | tvos
  | watchos
  | linux
  | maccatalyst
deriving DecidableEq

namespace Platform

/-- All platforms, in the order in which names are tried and lists are written. -/
def all : List Platform := [macos, ios, tvos, watchos, linux, maccatalyst]

/-- The name of a platform. -/
def name : Platform → String
  | macos => "macos"
  | ios => "ios"
  | tvos => "tvos"
  | watchos => "watchos"
  | linux => "linux"
  | maccatalyst => "maccatalyst"

/-- The other names that a platform may be read from. -/
def aliases : Platform → List String
  | maccatalyst => ["uikitForMac"]
  | _ => []

/-- The written form of a platform. -/
def text (p : Platform) : List Char := p.name.toList

/-- The texts that a platform is read from, its name first. -/
def spellings (p : Platform) : List (List Char) := p.text :: p.aliases.map String.toList

/-- All spellings with the platforms that they stand for, in the order in which they are tried. -/
def vocabulary : List (List Char × Platform) := all.flatMap fun p => p.spellings.map (·, p)

/-- A name that no platform has. -/
structure Unknown where
  /-- The name as it was given. -/
  name : List Char
deriving DecidableEq

/-- The wording of the error. -/
def Unknown.message (e : Unknown) : List Char := "Unknown platform: ".toList ++ e.name

/-- The platform with a name or alias, whatever its case and the blanks around it. -/
def ofName (t : List Char) : Except Unknown Platform :=
  match all.find? fun p => p.spellings.any (fold · = fold (trim t)) with
  | some p => .ok p
  | none => .error ⟨t⟩

theorem mem_all (p : Platform) : p ∈ all := by cases p <;> decide

theorem nodup_all : all.Nodup := by decide

theorem mem_vocabulary {s : List Char} {p : Platform} : (s, p) ∈ vocabulary ↔ s ∈ p.spellings := by
  simp only [vocabulary, List.mem_flatMap, List.mem_map, Prod.mk.injEq]
  constructor
  · rintro ⟨q, -, r, hr, rfl, rfl⟩
    exact hr
  · exact fun h => ⟨p, mem_all p, s, h, rfl, rfl⟩

theorem ne_nil_of_mem_spellings {s : List Char} {p : Platform} (h : s ∈ p.spellings) : s ≠ [] := by
  revert h s
  cases p <;> decide

/-- Passes over the first spelling of a vocabulary that lies ahead in any case, and tells its
platform. -/
def find? (vocabulary : List (List Char × Platform)) (c : Cursor) : Option (Platform × Cursor) :=
  (Cursor.choose? { c with caseSensitive := false } vocabulary).map fun (p, d) =>
    (p, { d with caseSensitive := c.caseSensitive })

/-- Reads one platform from the spellings of a vocabulary, which are tried in order. -/
def parserFor (vocabulary : List (List Char × Platform)) : Parser Platform :=
  .noting (fun c _ => .platformNotFound c.location c.remaining) do
    match ← Parser.withCase false (.scan (·.choose? vocabulary)) with
    | some p => return p
    | none => .reject .platformNotFound

/-- Reads one platform. -/
def parser : Parser Platform := parserFor vocabulary

/-- Reading a platform changes nothing but the location, and is rejected where no spelling lies
ahead. -/
theorem parserFor_run (vocabulary : List (List Char × Platform)) (c : Cursor) :
    (parserFor vocabulary).run c =
      match find? vocabulary c with
      | some (p, d) => { outcome := .value p, cursor := d }
      | none =>
        { outcome := .rejected { cause := .platformNotFound, line := some c.currentLine }
          cursor := c
          trace := [.platformNotFound c.location c.remaining] } := by
  simp only [parserFor, find?, Parser.noting, Parser.withCase, Parser.scan, Parser.run_bind]
  cases Cursor.choose? { c with caseSensitive := false } vocabulary with
  | none => rfl
  | some found => rfl

/-- A platform that is found moves the cursor ahead in the same text. -/
theorem location_lt_of_find? {vocabulary : List (List Char × Platform)} {c d : Cursor}
    {p : Platform} (h : find? vocabulary c = some (p, d)) :
    d.text = c.text ∧ c.location < d.location := by
  obtain ⟨⟨q, e⟩, he, hd⟩ := Option.map_eq_some_iff.1 h
  obtain ⟨s, -, hs⟩ := Cursor.exists_literal?_of_choose? he
  cases hd
  exact ⟨(Cursor.text_of_literal? hs :), (Cursor.location_lt_of_literal? hs :)⟩

end Platform

/-- A single platform that was read, as opposed to a list of platforms. -/
structure PlatformPin where
  /-- The platform. -/
  platform : Platform
deriving DecidableEq

/-- The written form of a single platform. -/
def PlatformPin.text (p : PlatformPin) : List Char := p.platform.text

/-- Reads a platform that stands alone. -/
def PlatformPin.parser : Parser PlatformPin := do
  let p ← Platform.parser
  return ⟨p⟩

end DependencyClause
