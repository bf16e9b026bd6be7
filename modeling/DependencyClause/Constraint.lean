import DependencyClause.Pin

/-!
# Version constraints

A constraint says which pins will do. A pin that names no version cannot be compared with one, so it
meets every comparison. A prerelease meets a range only if the range itself starts at a prerelease
of the same release.

In a clause a constraint is a comparison with a version, a commit between quotation marks, or a bare
version, which is compared exactly. Where none of these lies ahead any version will do and the
cursor stays.
-/

namespace DependencyClause

variable [VersionLibrary]

namespace Comparison

/-- The range that starts at `required` is open to `candidate`, as far as prereleases go. -/
def Open (required candidate : Version) : Prop :=
  candidate.IsPrerelease → required.IsPrerelease ∧ candidate.SameRelease required

instance (required candidate : Version) : Decidable (Open required candidate) :=
  inferInstanceAs (Decidable (_ → _))

/-- The two versions are not parted by a breaking release; below major version one every minor
version is breaking. -/
def SameSeries (required candidate : Version) : Prop :=
  candidate.major = required.major ∧ (required.major = 0 → candidate.minor = required.minor)

instance (required candidate : Version) : Decidable (SameSeries required candidate) :=
  inferInstanceAs (Decidable (_ ∧ (_ → _)))

/-- The candidate compares as it should with the required version. -/
def Admits : Comparison → Version → Version → Prop
  | exactly, required, candidate => candidate.Equal required
  | atLeast, required, candidate => Open required candidate ∧ candidate.AtLeast required
  | compatibleWith, required, candidate =>
    Open required candidate ∧ SameSeries required candidate ∧ candidate.AtLeast required

instance : (c : Comparison) → (required candidate : Version) →
    Decidable (c.Admits required candidate)
  | exactly, required, candidate => inferInstanceAs (Decidable (candidate.Equal required))
  | atLeast, _, _ => inferInstanceAs (Decidable (_ ∧ _))
  | compatibleWith, _, _ => inferInstanceAs (Decidable (_ ∧ _ ∧ _))

end Comparison

/-- Which pins will do. -/
inductive VersionConstraint where
  /-- Every pin, but no prerelease. -/
  | any
  /-- The pins whose version compares with the given one. -/
  | comparison (c : Comparison) (version : Version)
  /-- The pin with the given commit. -/
  | reference (commitish : List Char)
deriving DecidableEq

namespace VersionConstraint

/-- The pin meets the constraint. -/
def Accepts : VersionConstraint → Pin → Prop
  | any, p => ∀ v ∈ p.version?, ¬ v.IsPrerelease
  | comparison c required, p => ∀ v ∈ p.version?, c.Admits required v
  | reference r, p => p.commitish = r

instance : (k : VersionConstraint) → (p : Pin) → Decidable (k.Accepts p)
  | any, _ => inferInstanceAs (Decidable (∀ _ ∈ _, _))
  | comparison _ _, _ => inferInstanceAs (Decidable (∀ _ ∈ _, _))
  | reference _, _ => inferInstanceAs (Decidable (_ = _))

/-- The two constraints are equal: they say the same of equal versions, or name the same commit. -/
def Equal : VersionConstraint → VersionConstraint → Prop
  | any, any => True
  | comparison c v, comparison d w => c = d ∧ v.Equal w
  | reference r, reference s => r = s
  | _, _ => False

/-- The written form of a constraint; there is none where any version will do. -/
def text : VersionConstraint → List Char
  | any => []
  | comparison c v => c.symbol.toList ++ ' ' :: v.text
  | reference r => '"' :: r ++ ['"']

/-- Why a constraint cannot be made. -/
inductive Invalid where
  /-- A comparison has no version. -/
  | versionNeeded (c : Comparison)
  /-- A constraint by reference has no reference. -/
  | referenceNeeded
  /-- The text for the version is not a version. -/
  | notVersion (text : List Char)
deriving DecidableEq

/-- The wording of the error. -/
def Invalid.message : Invalid → List Char
  | versionNeeded c => c.name.toList ++ " constraint needs a version".toList
  | referenceNeeded => "git_reference constraint needs a reference".toList
  | notVersion t => "invalid version '".toList ++ t ++ ['\'']

/-- The constraint to compare with the version that a tag names. -/
def compareWith (c : Comparison) (tag : List Char) : Except Invalid VersionConstraint :=
  match Version.ofTag? tag with
  | some v => .ok (comparison c v)
  | none => .error (.notVersion tag)

/-- A comparison is made from a tag exactly if the tag names a version. -/
theorem compareWith_eq_ok_iff {c : Comparison} {t : List Char} {q : VersionConstraint} :
    compareWith c t = .ok q ↔ ∃ v, Version.ofTag? t = some v ∧ q = comparison c v := by
  rw [compareWith]
  cases Version.ofTag? t <;> simp [eq_comm]

/-- The shapes that a constraint can take. -/
inductive Kind where
  /-- Any version will do. -/
  | any
  /-- A version is named. -/
  | comparison (c : Comparison)
  /-- A commit is named. -/
  | reference
deriving DecidableEq

/-- The name of a shape. -/
def Kind.name : Kind → String
  | any => "any"
  | comparison c => c.name
  | reference => "git_reference"

/-- A constraint laid out in fields, of which its shape may leave some unused. -/
structure Fields where
  /-- The shape of the constraint. -/
  kind : Kind
  /-- The version to compare with. -/
  version : Option Version := none
  /-- The commit to look for. -/
  reference : Option (List Char) := none
deriving DecidableEq

/-- The constraint that the fields lay out, if those that its shape needs are there. -/
def Fields.constraint (f : Fields) : Except Invalid VersionConstraint :=
  match f.kind, f.version, f.reference with
  | .any, _, _ => .ok .any
  | .comparison c, some v, _ => .ok (.comparison c v)
  | .comparison c, none, _ => .error (.versionNeeded c)
  | .reference, _, some r => .ok (.reference r)
  | .reference, _, none => .error .referenceNeeded

/-- The fields of a constraint, those that its shape needs and no other. -/
def fields : VersionConstraint → Fields
  | any => { kind := .any }
  | comparison c v => { kind := .comparison c, version := some v }
  | reference r => { kind := .reference, reference := some r }

/-- The fields of a constraint lay it out. -/
theorem constraint_fields (k : VersionConstraint) : k.fields.constraint = .ok k := by
  cases k <;> rfl

/-- The symbols of the comparisons. -/
def symbols : List (List Char × Comparison) := Comparison.all.map fun c => (c.symbol.toList, c)

/-- Reads the version after the symbol of a comparison. -/
def operand (c : Comparison) : Parser VersionConstraint := do
  match ← .scan (·.run? .versionCharacters) with
  | none => .reject (.versionMissing c)
  | some t =>
    match Version.ofTag? t with
    | some v => return comparison c v
    | none => .reject (.versionInvalid t)

/-- Reads a bare version; if there is none the cursor stays and any version will do. -/
def bareVersion : Parser VersionConstraint := do
  let start ← .location
  match ← .scan (·.run? .versionCharacters) with
  | none => return any
  | some t =>
    match Version.ofTag? t with
    | some v => return comparison .exactly v
    | none =>
      .moveTo start
      return any

/-- Reads a version constraint, if there is one. -/
def parser : Parser VersionConstraint :=
  .noting (fun c cause => .constraintRejected c.location cause) do
    match ← .scan (·.choose? symbols) with
    | some c => operand c
    | none =>
      if ← .literal ['"'] then return reference (← .quotation)
      bareVersion

end VersionConstraint

end DependencyClause
