import DependencyClause.Clause

/-!
# How clauses are written

The grammar of clauses as a relation between a clause and a text that writes it. Blanks may stand
between any two parts; names and the keyword may be cased in any way; the order of the platforms in
a list and their repetitions do not count. What may stand between quotation marks is left open, so
that the grammar can be compared with what is read from texts of any kind.
-/

namespace DependencyClause

open Text

/-- A run of blanks, possibly empty. -/
def IsBlankRun (w : List Char) : Prop := ∀ x ∈ w, x ∈ CharSet.blanks

theorem isBlankRun_nil : IsBlankRun [] := List.forall_mem_nil _

theorem isBlankRun_space : IsBlankRun [' '] := List.forall_mem_singleton.mpr (by decide)

/-- The text is a spelling of the platform, cased in any way. -/
def Platform.Written (p : Platform) (t : List Char) : Prop := ∃ s ∈ p.spellings, fold t = fold s

namespace PlatformRestriction

/-- The text names the platforms one after the other, parted by commas. -/
inductive ItemsWritten : List Platform → List Char → Prop where
  /-- The last platform. -/
  | last {p : Platform} {t : List Char} (hp : p.Written t) : ItemsWritten [p] t
  /-- A platform, a comma and the platforms behind it. -/
  | more {p : Platform} {l : List Platform} {t u v w : List Char} (hp : p.Written t)
      (hu : IsBlankRun u) (hv : IsBlankRun v) (hl : ItemsWritten l w) :
      ItemsWritten (p :: l) (t ++ u ++ ',' :: v ++ w)

/-- The text writes the restriction. -/
inductive Written : PlatformRestriction → List Char → Prop where
  /-- Nothing is written where nothing is restricted. -/
  | unrestricted : Written unrestricted []
  /-- The keyword and, in brackets, the platforms. -/
  | among {l : List Platform} {k t u v w : List Char} (hk : fold k = keyword) (hu : IsBlankRun u)
      (hv : IsBlankRun v) (hl : ItemsWritten l t) (hw : IsBlankRun w) :
      Written (among (.ofList l)) (k ++ u ++ '[' :: v ++ t ++ w ++ [']'])

end PlatformRestriction

variable [VersionLibrary]

/-- The text is a tag that names the version, and nothing but version characters. -/
structure Version.Written (v : Version) (t : List Char) : Prop where
  /-- The tag is not empty. -/
  ne_nil : t ≠ []
  /-- It holds version characters only. -/
  characters : ∀ x ∈ t, x ∈ CharSet.versionCharacters
  /-- It names the version. -/
  names : ofTag? t = some v

/-- The text writes the constraint, if texts with the property `quoted` may stand between quotation
marks. -/
inductive VersionConstraint.Written (quoted : List Char → Prop) :
    VersionConstraint → List Char → Prop where
  /-- Nothing is written where any version will do. -/
  | any : Written quoted any []
  /-- The symbol of a comparison and a version. -/
  | comparison {c : Comparison} {v : Version} {t w : List Char} (hw : IsBlankRun w)
      (ht : v.Written t) : Written quoted (comparison c v) (c.symbol.toList ++ w ++ t)
  /-- A bare version, which is compared exactly. -/
  | bare {v : Version} {t : List Char} (ht : v.Written t) : Written quoted (comparison .exactly v) t
  /-- A commit between quotation marks, verbatim. -/
  | reference {r : List Char} (hr : quoted r) : Written quoted (reference r) ('"' :: r ++ ['"'])

/-- The text writes the clause: its constraint, its platforms, and blanks around them. -/
inductive Clause.Written (quoted : List Char → Prop) (k : Clause) : List Char → Prop where
  /-- The two parts and the blanks. -/
  | intro {s t u v w : List Char} (hu : IsBlankRun u) (hs : k.constraint.Written quoted s)
      (hv : IsBlankRun v) (ht : k.platforms.Written t) (hw : IsBlankRun w) :
      Written quoted k (u ++ s ++ v ++ t ++ w)

/-- The grammar looks at what stands between quotation marks only through the property. -/
theorem VersionConstraint.Written.imp {P Q : List Char → Prop} {k : VersionConstraint}
    {t : List Char} (h : k.Written P t) (hPQ : ∀ r, '"' :: r ++ ['"'] = t → P r → Q r) :
    k.Written Q t := by
  cases h with
  | any => exact .any
  | comparison hw ht => exact .comparison hw ht
  | bare ht => exact .bare ht
  | reference hr => exact .reference (hPQ _ rfl hr)

end DependencyClause
