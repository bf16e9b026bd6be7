import DependencyClause.Constraint
import DependencyClause.Restriction

/-!
# Clauses

A clause joins a version constraint and a platform restriction, and a candidate has to meet both. A
resolved pin is what a clause was resolved to: a pin and the platforms that it holds for.
`Clause.read` reads a text that has to be one clause from its first character to its last.
-/

namespace DependencyClause

variable [VersionLibrary]

/-- A version constraint and a platform restriction. -/
structure Clause where
  /-- Which pins will do. -/
  constraint : VersionConstraint := .any
  /-- On which platforms. -/
  platforms : PlatformRestriction := .unrestricted
deriving DecidableEq

/-- A pin and the platforms that it holds for. -/
structure ResolvedPin where
  /-- The pin. -/
  pin : Pin
  /-- The platforms that it holds for. -/
  platforms : PlatformRestriction := .unrestricted
deriving DecidableEq

namespace Clause

/-- The pin will do on the platform. -/
def Accepts (k : Clause) (p : Pin) (f : Platform) : Prop :=
  k.constraint.Accepts p ∧ k.platforms.Accepts f

instance (k : Clause) (p : Pin) (f : Platform) : Decidable (k.Accepts p f) :=
  inferInstanceAs (Decidable (_ ∧ _))

/-- The two clauses are equal: their constraints are, and their restrictions. -/
def Equal (k l : Clause) : Prop := k.constraint.Equal l.constraint ∧ k.platforms = l.platforms

/-- The written form of a clause: the forms of its two parts, with a space between them if neither
is empty. -/
def text (k : Clause) : List Char :=
  List.intercalate [' '] ([k.constraint.text, k.platforms.text].filter (· ≠ []))

/-- The clause that accepts the version of a pin and no other one, on the pin's platforms. -/
def ofResolved (r : ResolvedPin) : Except Failure Clause :=
  match r.pin.version? with
  | some v => .ok { constraint := .comparison .exactly v, platforms := r.platforms }
  | none => .error { cause := .versionUnavailable }

/-- A clause is made from a resolved pin exactly if the pin names a version. -/
theorem ofResolved_eq_ok_iff {r : ResolvedPin} {k : Clause} :
    ofResolved r = .ok k ↔ ∃ v, r.pin.version? = some v ∧
      k = { constraint := .comparison .exactly v, platforms := r.platforms } := by
  rw [ofResolved]
  cases r.pin.version? <;> simp [eq_comm]

/-- There is one way to fail. -/
theorem ofResolved_eq_error_iff {r : ResolvedPin} {e : Failure} :
    ofResolved r = .error e ↔ r.pin.version? = none ∧ e = { cause := .versionUnavailable } := by
  rw [ofResolved]
  cases r.pin.version? <;> simp [eq_comm]

end Clause

/-- The written form of a resolved pin: its declaration and, if they are restricted, its
platforms. -/
def ResolvedPin.text (r : ResolvedPin) : Except Pin.Undeclarable (List Char) :=
  match r.platforms with
  | .unrestricted => r.pin.declaration
  | .among s => do return (← r.pin.declaration) ++ ' ' :: (PlatformRestriction.among s).text

/-- Reads a clause: a version constraint, then a platform restriction. -/
def Clause.parser : Parser Clause := do
  let constraint ← VersionConstraint.parser
  let platforms ← PlatformRestriction.parser
  return { constraint := constraint, platforms := platforms }

/-- Reads a resolved pin: a pin, then a platform restriction. -/
def ResolvedPin.parser : Parser ResolvedPin := do
  let pin ← Pin.parser
  let platforms ← PlatformRestriction.parser
  return { pin := pin, platforms := platforms }

/-- Reads a clause up to the end of the text. -/
def Clause.complete : Parser Clause := do
  let k ← parser
  if ← .atEnd then return k else .reject .trailingCharacters

/-- Reads a text that is one clause. -/
def Clause.read (t : List Char) : Parsed Clause :=
  (complete.noting fun _ cause => .clauseRejected t cause).run { text := t }

end DependencyClause
