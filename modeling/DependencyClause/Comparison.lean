/-!
# Comparisons

The three ways in which a constraint compares a version with the one that it names.
-/

namespace DependencyClause

/-- How a constraint compares versions. -/
inductive Comparison where
  /-- The version itself. -/
  | exactly
  /-- The version or a later one. -/
  | atLeast
  /-- The version or a later one before the next breaking release. -/
  | compatibleWith
deriving DecidableEq

namespace Comparison

/-- All comparisons, in the order in which their symbols are tried. -/
def all : List Comparison := [exactly, atLeast, compatibleWith]

/-- The symbol that a clause writes before the version. -/
def symbol : Comparison → String
  | exactly => "=="
  | atLeast => ">="
  | compatibleWith => "~>"

/-- The name of the comparison in messages. -/
def name : Comparison → String
  | exactly => "exactly"
  | atLeast => "at_least"
  | compatibleWith => "compatible_with"

theorem mem_all (c : Comparison) : c ∈ all := by cases c <;> decide

end Comparison

end DependencyClause
