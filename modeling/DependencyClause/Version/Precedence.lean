import DependencyClause.Version.Semantic

/-!
# Precedence of versions

Versions are compared by their three numbers and then by their prereleases. A release comes after
its prereleases; these compare identifier by identifier, where a number comes before any other
identifier. Builds do not count, so `precedence` is a preorder on versions.
-/

namespace DependencyClause

open Std

namespace Identifier

/-- Numbers compare by value and come first; other identifiers compare by code points. -/
protected def compare : Identifier → Identifier → Ordering
  | numeric m, numeric n => compare m n
  | numeric _, alphanumeric _ => .lt
  | alphanumeric _, numeric _ => .gt
  | alphanumeric s, alphanumeric t => compare s t

instance : Ord Identifier := ⟨Identifier.compare⟩

@[simp] theorem compare_numeric (m n : Nat) : compare (numeric m) (numeric n) = compare m n := rfl

@[simp] theorem compare_numeric_alphanumeric (n : Nat) (t : List Char) :
    compare (numeric n) (alphanumeric t) = .lt := rfl

@[simp] theorem compare_alphanumeric_numeric (t : List Char) (n : Nat) :
    compare (alphanumeric t) (numeric n) = .gt := rfl

@[simp] theorem compare_alphanumeric (s t : List Char) :
    compare (alphanumeric s) (alphanumeric t) = compare s t := rfl

instance : TransOrd Identifier where
  eq_swap {a b} :=
    match a, b with
    | numeric m, numeric n => @OrientedCmp.eq_swap Nat compare _ m n
    | numeric _, alphanumeric _ => rfl
    | alphanumeric _, numeric _ => rfl
    | alphanumeric s, alphanumeric t => @OrientedCmp.eq_swap (List Char) compare _ s t
  isLE_trans {a b c} h₁ h₂ := by
    cases a <;> cases b <;> cases c <;>
      simp only [compare_numeric, compare_numeric_alphanumeric, compare_alphanumeric_numeric,
        compare_alphanumeric, Ordering.isLE_lt, Ordering.isLE_gt, Bool.false_eq_true] at h₁ h₂ ⊢ <;>
      exact TransCmp.isLE_trans h₁ h₂

instance : LawfulEqOrd Identifier where
  eq_of_compare {a b} h := by
    cases a <;> cases b
    · exact congrArg numeric (LawfulEqOrd.eq_of_compare h)
    · cases h
    · cases h
    · exact congrArg alphanumeric (LawfulEqOrd.eq_of_compare h)

end Identifier

namespace SemanticVersion

/-- A release comes last; prereleases compare identifier by identifier. -/
def comparePrerelease : List Identifier → List Identifier → Ordering
  | [], [] => .eq
  | [], _ :: _ => .gt
  | _ :: _, [] => .lt
  | i :: l, j :: m => compare (i :: l) (j :: m)

instance : TransCmp comparePrerelease where
  eq_swap {a b} :=
    match a, b with
    | [], [] => rfl
    | [], _ :: _ => rfl
    | _ :: _, [] => rfl
    | i :: l, j :: m => @OrientedCmp.eq_swap (List Identifier) compare _ (i :: l) (j :: m)
  isLE_trans {a b c} h₁ h₂ := by
    cases a <;> cases b <;> cases c <;>
      simp only [comparePrerelease, Ordering.isLE_lt, Ordering.isLE_gt, Ordering.isLE_eq,
        Bool.false_eq_true] at h₁ h₂ ⊢
    exact TransCmp.isLE_trans h₁ h₂

instance : LawfulEqCmp comparePrerelease where
  compare_self {a} := by
    cases a
    · rfl
    · exact ReflOrd.compare_self
  eq_of_compare {a b} h := by
    cases a <;> cases b
    · rfl
    · cases h
    · cases h
    · exact LawfulEqOrd.eq_of_compare h

/-- Compares versions by their numbers and then by their prereleases. -/
def precedence : SemanticVersion → SemanticVersion → Ordering :=
  compareLex (compareOn major) <| compareLex (compareOn minor) <| compareLex (compareOn patch)
    fun v w => comparePrerelease v.prerelease w.prerelease

private instance :
    TransCmp fun v w : SemanticVersion => comparePrerelease v.prerelease w.prerelease where
  eq_swap {v w} := @OrientedCmp.eq_swap _ comparePrerelease _ v.prerelease w.prerelease
  isLE_trans {u v w} :=
    @TransCmp.isLE_trans _ comparePrerelease _ u.prerelease v.prerelease w.prerelease

instance : TransCmp precedence := inferInstanceAs (TransCmp (compareLex _ _))

/-- Neither version comes before the other exactly if they differ in their builds at most. -/
theorem precedence_eq_iff {v w : SemanticVersion} :
    precedence v w = .eq ↔ SameRelease v w ∧ v.prerelease = w.prerelease := by
  simp only [precedence, compareLex, compareOn, Ordering.then_eq_eq, LawfulEqCmp.compare_eq_iff_eq,
    SameRelease, and_assoc]

/-- The first version does not come before the second one. -/
def AtLeast (v w : SemanticVersion) : Prop := (precedence v w).isGE = true

instance (v w : SemanticVersion) : Decidable (AtLeast v w) := inferInstanceAs (Decidable (_ = _))

end SemanticVersion

end DependencyClause
