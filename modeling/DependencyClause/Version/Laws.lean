import DependencyClause.Version.Library
import DependencyClause.Version.Precedence

/-!
# The rules of a library of versions

What one can rely on in a library of versions, as its documentation has it: which tags it reads
strictly and as what, which tag it coerces a tag to before it reads that strictly, how it writes a
version, and how it compares versions. Nothing is said of texts that are no tags, since none of them
is given to a library (`Version.ofTag?`).
-/

namespace DependencyClause

open Text

/-- The digits are a number that is not written with a spare zero and is short enough to be
converted. -/
structure IsNumber (t : List Char) : Prop where
  /-- There is no spare zero in front. -/
  hasSpareZero_eq : hasSpareZero t = false
  /-- There are not too many digits. -/
  length_le : t.length ≤ maxDigits

/-- The text holds version characters only, but no plus sign. -/
def IsDottedText (t : List Char) : Prop := ∀ x ∈ t, x ∈ CharSet.versionCharacters ∧ x ≠ '+'

/-- The text can stand for an identifier. -/
structure IsWord (t : List Char) : Prop where
  /-- An identifier is not empty. -/
  ne_nil : t ≠ []
  /-- It holds version characters only, but no plus sign. -/
  dottedText : IsDottedText t
  /-- It holds no full stop. -/
  not_mem_dot : '.' ∉ t

/-- The identifier that is written as the given word. -/
def Identifier.ofWord (w : List Char) : Identifier :=
  if w.all Char.isDigit then numeric (numeralValue w) else alphanumeric w

namespace Tag

/-- The tag writes a version out: its three numbers, the identifiers of its prerelease behind a
hyphen and those of its build behind a plus sign. Only in a build may a number have a spare zero. -/
inductive Spells : Tag → SemanticVersion → Prop where
  /-- What is written out are three numerals and words. -/
  | intro {major minor patch : List Char} {prerelease build : List (List Char)}
      (hnumbers : ∀ n ∈ [major, minor, patch], IsNumber n)
      (hprerelease : ∀ w ∈ prerelease, IsWord w ∧ (w.all Char.isDigit = true → IsNumber w))
      (hbuild : ∀ w ∈ build, IsWord w ∧ (w.all Char.isDigit = true → w.length ≤ maxDigits)) :
      Spells
        { numerals := [major, minor, patch]
          suffix := SemanticVersion.marked '-' prerelease ++ SemanticVersion.marked '+' build }
        { major := numeralValue major
          minor := numeralValue minor
          patch := numeralValue patch
          prerelease := prerelease.map .ofWord
          build := build }

/-- The numeral at a position without its spare zeros, or zero if there is none. -/
def numeral (tag : Tag) (i : Nat) : List Char := stripZeros (tag.numerals.getD i [])

/-- A hyphen for each character that a version may not hold. -/
def hyphenate (c : Char) : Char := if c ∈ CharSet.versionCharacters then c else '-'

/-- A full stop for a plus sign. -/
def stopForPlus (c : Char) : Char := if c = '+' then '.' else c

/-- What follows the first three numerals, in characters that a version may hold. -/
def rest (tag : Tag) : List Char :=
  ((tag.numerals.drop 3).flatMap ('.' :: ·) ++ tag.suffix).map hyphenate

/-- Cuts a text at its first plus sign, which is dropped. -/
def cutAtPlus (t : List Char) : List Char × List Char :=
  (t.takeWhile (· != '+'), (t.dropWhile (· != '+')).tail)

/-- The prerelease and the build of any suffix: only a hyphen opens a prerelease, and a plus sign
within the build parts its identifiers. -/
def lenientParts (rest : List Char) : List Char × List Char :=
  let (prerelease, build) :=
    match rest with
    | '-' :: t => cutAtPlus t
    | t => ([], t.tail)
  (prerelease, build.map stopForPlus)

/-- A text behind its mark, or nothing if there is no text. -/
def behind (mark : Char) (t : List Char) : List Char := if t = [] then [] else mark :: t

/-- The tag that a tag is coerced to: three numerals without spare zeros, zero for those that are
missing, and all that follows them as a prerelease and a build. -/
def normalized (tag : Tag) : Tag :=
  let (prerelease, build) := lenientParts tag.rest
  { numerals := [tag.numeral 0, tag.numeral 1, tag.numeral 2]
    suffix := behind '-' prerelease ++ behind '+' build }

end Tag

/-- A library of versions that keeps the rules. -/
class LawfulVersionLibrary [VersionLibrary] : Prop where
  /-- Of a tag the version is read that the tag writes out, and none if it writes out none. -/
  strict?_iff {tag : Tag} {s : SemanticVersion} (h : tag.WellFormed) :
    (∃ v, Version.strict? tag.text = some v ∧ v.parts = s) ↔ tag.Spells s
  /-- A tag is coerced to its normal form, which is read strictly. -/
  coerce?_eq {tag : Tag} (h : tag.WellFormed) :
    Version.coerce? tag.text = Version.strict? tag.normalized.text
  /-- A version is written as its parts are. -/
  text_eq (v : Version) : v.text = v.parts.text
  /-- Versions are equal exactly if their parts are. -/
  equal_iff {v w : Version} : v.Equal w ↔ v.parts = w.parts
  /-- Versions are ordered by the precedence of their parts, in which builds do not count. -/
  atLeast_iff {v w : Version} : v.AtLeast w ↔ v.parts.AtLeast w.parts

end DependencyClause
