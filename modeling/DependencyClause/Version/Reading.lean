import DependencyClause.Version.Laws

/-!
# Semantic versions as a library

The library of versions that is used where a program is run: its versions are their parts. It reads
the texts of tags. A tag is read strictly if it is written like a version; coercing drops spare
zeros, fills in numbers that are missing and puts numerals that are too many into the build.
-/

namespace DependencyClause

open Text

namespace SemanticVersion

/-- Reads one of the three numbers, which may not start with a spare zero. -/
def readNumber? (t : List Char) : Option Nat := if hasSpareZero t then none else readNumeral? t

/-- Reads an identifier of a prerelease. -/
def readIdentifier? (t : List Char) : Option Identifier :=
  if t = [] then none
  else if t.all Char.isDigit then (readNumber? t).map .numeric
  else some (.alphanumeric t)

/-- Reads an identifier of a build, which may start with zeros. -/
def readBuild? (t : List Char) : Option (List Char) :=
  if t = [] then none
  else if t.all Char.isDigit && maxDigits < t.length then none
  else some t

/-- Reads identifiers parted by full stops; an empty text has none. -/
def readParts? {α : Type} (read? : List Char → Option α) (t : List Char) : Option (List α) :=
  if t = [] then some [] else (t.splitOn '.').mapM read?

/-- The version that has the given parts, if all of them can be read. -/
def ofParts? (major minor patch prerelease build : List Char) : Option SemanticVersion := do
  return {
    major := ← readNumber? major
    minor := ← readNumber? minor
    patch := ← readNumber? patch
    prerelease := ← readParts? readIdentifier? prerelease
    build := ← readParts? readBuild? build }

end SemanticVersion

namespace Tag

/-- The prerelease and the build of a well-formed suffix, where a mark is followed by something. -/
def strictParts? : List Char → Option (List Char × List Char)
  | [] => some ([], [])
  | '-' :: t =>
    let (prerelease, build) := cutAtPlus t
    if prerelease = [] ∨ '+' ∈ build ∨ (build = [] ∧ '+' ∈ t) then none
    else some (prerelease, build)
  | _ :: t => if t = [] ∨ '+' ∈ t then none else some ([], t)

/-- The version that the tag spells exactly: three numbers and a well-formed suffix. -/
def strict? (tag : Tag) : Option SemanticVersion :=
  match tag.numerals with
  | [major, minor, patch] => do
    let (prerelease, build) ← strictParts? tag.suffix
    SemanticVersion.ofParts? major minor patch prerelease build
  | _ => none

/-- The version that the tag most likely means: the one that its normal form spells. -/
def lenient? (tag : Tag) : Option SemanticVersion := tag.normalized.strict?

end Tag

/-- Semantic versions are a library of versions. -/
instance SemanticVersion.library : VersionLibrary where
  Carrier := SemanticVersion
  strict? t := (Tag.ofText? t).bind Tag.strict?
  coerce? t := (Tag.ofText? t).bind Tag.lenient?
  parts := id
  text := SemanticVersion.text
  equal v w := decide (v = w)
  atLeast v w := decide (v.AtLeast w)

end DependencyClause
