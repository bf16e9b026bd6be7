import DependencyClause.Text.Digit

/-!
# Semantic versions

What the standard for versions says one is: three numbers, the identifiers of a prerelease and those
of a build; a release has no prerelease. `SemanticVersion.text` writes it, numbers in decimal and
identifiers parted by full stops.
-/

namespace DependencyClause

open Text

/-- One identifier of a prerelease. -/
inductive Identifier where
  /-- An identifier that is a number. -/
  | numeric (n : Nat)
  /-- An identifier that holds more than digits. -/
  | alphanumeric (text : List Char)
deriving DecidableEq

/-- The written form of an identifier. -/
def Identifier.text : Identifier → List Char
  | numeric n => decimal n
  | alphanumeric t => t

/-- The parts of a version. -/
structure SemanticVersion where
  /-- The number that changes with a breaking release. -/
  major : Nat
  /-- The number that changes with new features. -/
  minor : Nat
  /-- The number that changes with repairs. -/
  patch : Nat
  /-- The identifiers that mark a version before its release; none for a release. -/
  prerelease : List Identifier := []
  /-- The identifiers that tell builds of one version apart. -/
  build : List (List Char) := []
deriving DecidableEq

namespace SemanticVersion

/-- The version comes before the release that has its numbers. -/
def IsPrerelease (v : SemanticVersion) : Prop := v.prerelease ≠ []

/-- The two versions have the same numbers. -/
def SameRelease (v w : SemanticVersion) : Prop :=
  v.major = w.major ∧ v.minor = w.minor ∧ v.patch = w.patch

instance (v w : SemanticVersion) : Decidable (SameRelease v w) :=
  inferInstanceAs (Decidable (_ ∧ _))

/-- Two versions are equal exactly if their numbers, prereleases and builds are. -/
theorem eq_iff {v w : SemanticVersion} :
    v = w ↔ SameRelease v w ∧ v.prerelease = w.prerelease ∧ v.build = w.build := by
  cases v
  cases w
  simp only [SemanticVersion.mk.injEq, SameRelease, and_assoc]

/-- Parts joined by full stops. -/
def dotted (parts : List (List Char)) : List Char := List.intercalate ['.'] parts

/-- The identifiers in a text, which full stops part; an empty text has none. -/
def words (t : List Char) : List (List Char) := if t = [] then [] else t.splitOn '.'

/-- Identifiers behind their mark, or nothing if there are none. -/
def marked (mark : Char) : List (List Char) → List Char
  | [] => []
  | part :: parts => mark :: dotted (part :: parts)

/-- The written form of a version. -/
def text (v : SemanticVersion) : List Char :=
  dotted [decimal v.major, decimal v.minor, decimal v.patch]
    ++ marked '-' (v.prerelease.map Identifier.text) ++ marked '+' v.build

end SemanticVersion

end DependencyClause
