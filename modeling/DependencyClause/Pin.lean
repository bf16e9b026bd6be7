import DependencyClause.Parser
import DependencyClause.Version.Library

/-!
# Pins

A pin names the commit that a dependency is held at: a tag, a branch or a hash. Its declaration
is the form in which a clause holds it, between quotation marks where it would not stand bare. It is
read from that form. Where no pin is found the cursor returns to where it was; that is a fault if it
was past the end of the text.
-/

namespace DependencyClause

open Text

/-- The commit that a dependency is held at. -/
structure Pin where
  /-- A tag, a branch or a hash. -/
  commitish : List Char
deriving DecidableEq

namespace Pin

/-- The version that the pin names, if it names one. -/
def version? [VersionLibrary] (p : Pin) : Option Version := Version.ofTag? p.commitish

/-- Whether a text starts as a bare pin may not: with a quotation mark, or with the character that
opens a list of platforms. -/
def startsReserved : List Char → Bool
  | c :: _ => c == '"' || c == '@'
  | [] => false

/-- Whether a pin has to stand between quotation marks. -/
def needsQuotes (t : List Char) : Bool := startsReserved t || t.any (· ∈ CharSet.blanks)

/-- Why a pin has no declaration. -/
inductive Undeclarable where
  /-- It is empty. -/
  | empty
  /-- It needs quotation marks and holds one. -/
  | unquotable (commitish : List Char)
deriving DecidableEq

/-- The wording of the error. -/
def Undeclarable.message : Undeclarable → List Char
  | empty => "empty commitish cannot be written as a declaration".toList
  | unquotable t => "commitish ".toList ++ quote t ++ " cannot be written as a declaration".toList

/-- The form in which a clause holds the pin. -/
def declaration (p : Pin) : Except Undeclarable (List Char) :=
  if p.commitish = [] then .error .empty
  else if needsQuotes p.commitish then
    if '"' ∈ p.commitish then .error (.unquotable p.commitish)
    else .ok ('"' :: p.commitish ++ ['"'])
  else .ok p.commitish

/-- Reads a bare pin, up to the next blank; if there is none the cursor returns to where it was. -/
def bare : Parser Pin := do
  let start ← .location
  match (← .scan (·.runUpTo? .blanks)).filter (!startsReserved ·) with
  | some commitish => return ⟨commitish⟩
  | none =>
    .moveTo start
    .reject .pinExpected

/-- Reads a pin. -/
def parser : Parser Pin := do
  if ← .literal ['"'] then
    let body ← .quotation
    if body = [] then .reject .pinExpected else return ⟨body⟩
  else bare

end Pin

end DependencyClause
