import DependencyClause.Text.Blank
import DependencyClause.Text.CharSet
import DependencyClause.Version.Semantic

/-!
# Tags

A tag is a dotted run of numerals and a suffix that opens with a hyphen or a plus sign. Only tags
are taken for versions, so that a hash or the name of a branch is not. Blanks around a tag and a
letter in front of it do not count.
-/

namespace DependencyClause

open Text

/-- A tag that may name a version, cut where its numerals end. -/
structure Tag where
  /-- The numerals, in order. -/
  numerals : List (List Char)
  /-- What follows the numerals, with the mark that opens it. -/
  suffix : List Char
deriving DecidableEq

namespace Tag

/-- Whether a text may follow the numerals of a tag. -/
def isSuffix : List Char → Bool
  | [] => true
  | c :: t => (c == '-' || c == '+') && t.all (· ∈ CharSet.versionCharacters)

/-- Whether the character may stand among the numerals of a tag. -/
def isNumeralPart (c : Char) : Bool := isDigit c || c == '.'

/-- Cuts a text into numerals and a suffix, if it consists of these. -/
def ofText? (t : List Char) : Option Tag :=
  let numerals := (t.takeWhile isNumeralPart).splitOn '.'
  let suffix := t.dropWhile isNumeralPart
  if numerals.all (· != []) && isSuffix suffix then some ⟨numerals, suffix⟩ else none

/-- The written form of a tag. -/
def text (tag : Tag) : List Char := SemanticVersion.dotted tag.numerals ++ tag.suffix

/-- The tag is one that a text can be cut into. -/
structure WellFormed (tag : Tag) : Prop where
  /-- There is a numeral. -/
  ne_nil : tag.numerals ≠ []
  /-- A numeral has digits, of whatever script, and nothing else. -/
  numeral : ∀ n ∈ tag.numerals, n ≠ [] ∧ ∀ c ∈ n, isDigit c = true
  /-- The suffix may follow numerals. -/
  suffix : isSuffix tag.suffix = true

/-- The text without the letter that marks it as a version. -/
def dropMark : List Char → List Char
  | c :: t => if c = 'v' ∨ c = 'V' then t else c :: t
  | [] => []

/-- What may stand between the blanks in front of a tag and the tag. -/
def marks : List (List Char) := [[], ['v'], ['V']]

/-- The text is the tag behind a mark, with blanks around. -/
def SpelledBy (tag : Tag) (t : List Char) : Prop :=
  ∃ l mark r, t = l ++ (mark ++ tag.text) ++ r ∧ mark ∈ marks ∧
    (∀ c ∈ l, isBlank c = true) ∧ ∀ c ∈ r, isBlank c = true

end Tag

end DependencyClause
