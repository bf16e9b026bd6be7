import DependencyClause.Version.Tag

/-!
# Libraries of versions

Versions come from a library that is not part of this one. It reads them, writes them and compares
them, and nothing else is known of them but their parts. `VersionLibrary` is what is used of such a
library; what follows from its rules is shown for every library that keeps them
(`LawfulVersionLibrary`).

`Version.ofTag?` decides what is given to the library to read: a tag, and that strictly first. Only
what cannot be read strictly is coerced, where numbers may be missing or too many, and a plus sign
may stand where it should not.
-/

namespace DependencyClause

open Text

/-- A library of versions, as far as it is used. -/
class VersionLibrary where
  /-- The versions of the library. -/
  Carrier : Type
  /-- Whether two versions are the same value can be decided. -/
  [decEq : DecidableEq Carrier]
  /-- Reads a text that is a version as the standard has it. -/
  strict? : List Char → Option Carrier
  /-- Reads a text as the version that it most likely means. -/
  coerce? : List Char → Option Carrier
  /-- The parts of a version. -/
  parts : Carrier → SemanticVersion
  /-- The written form of a version. -/
  text : Carrier → List Char
  /-- Whether two versions are equal. -/
  equal : Carrier → Carrier → Bool
  /-- Whether the first version is the second one or comes after it. -/
  atLeast : Carrier → Carrier → Bool

/-- A version of the library. -/
abbrev Version [VersionLibrary] : Type := VersionLibrary.Carrier

namespace Version

variable [VersionLibrary]

instance : DecidableEq Version := VersionLibrary.decEq

/-- The version that a text is, written as the standard has it. -/
def strict? (t : List Char) : Option Version := VersionLibrary.strict? t

/-- The version that a text most likely means. -/
def coerce? (t : List Char) : Option Version := VersionLibrary.coerce? t

/-- The version that a tag names, such as `v1.2` or `1.2.3-beta.1`; blanks around it do not
count. -/
def ofTag? (t : List Char) : Option Version :=
  let candidate := Tag.dropMark (trim t)
  if (Tag.ofText? candidate).isSome then strict? candidate <|> coerce? candidate else none

/-- The parts of a version. -/
def parts (v : Version) : SemanticVersion := VersionLibrary.parts v

/-- The number that changes with a breaking release. -/
def major (v : Version) : Nat := v.parts.major

/-- The number that changes with new features. -/
def minor (v : Version) : Nat := v.parts.minor

/-- The number that changes with repairs. -/
def patch (v : Version) : Nat := v.parts.patch

/-- The identifiers that mark a version before its release. -/
def prerelease (v : Version) : List Identifier := v.parts.prerelease

/-- The identifiers that tell builds of one version apart. -/
def build (v : Version) : List (List Char) := v.parts.build

/-- The version comes before the release that has its numbers. -/
def IsPrerelease (v : Version) : Prop := v.prerelease ≠ []

instance (v : Version) : Decidable v.IsPrerelease := inferInstanceAs (Decidable (_ ≠ _))

/-- The two versions have the same numbers. -/
def SameRelease (v w : Version) : Prop :=
  v.major = w.major ∧ v.minor = w.minor ∧ v.patch = w.patch

instance (v w : Version) : Decidable (SameRelease v w) := inferInstanceAs (Decidable (_ ∧ _))

/-- The written form of a version. -/
def text (v : Version) : List Char := VersionLibrary.text v

/-- The library takes the two versions for equal. -/
def Equal (v w : Version) : Prop := VersionLibrary.equal v w = true

instance (v w : Version) : Decidable (Equal v w) := inferInstanceAs (Decidable (_ = _))

/-- The first version does not come before the second one, as the library has it. -/
def AtLeast (v w : Version) : Prop := VersionLibrary.atLeast v w = true

instance (v w : Version) : Decidable (AtLeast v w) := inferInstanceAs (Decidable (_ = _))

end Version

end DependencyClause
