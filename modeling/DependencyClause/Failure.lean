import DependencyClause.Comparison
import DependencyClause.Text.CharSet

/-!
# Failures

A failure says why a text was rejected, and quotes the line in which reading stopped.
-/

namespace DependencyClause

/-- Why a text is rejected. -/
inductive Cause where
  /-- No platform has a name that lies ahead. -/
  | platformNotFound
  /-- The keyword of a platform list is not followed by a list. -/
  | listNotFound
  /-- A platform in a list is followed by neither a separator nor the end of the list. -/
  | listMalformed
  /-- A comparison names no version. -/
  | versionMissing (comparison : Comparison)
  /-- A comparison names something that is not a version. -/
  | versionInvalid (text : List Char)
  /-- A quotation has no end. -/
  | quoteUnterminated
  /-- There is no pin where one has to stand. -/
  | pinExpected
  /-- Something follows a clause. -/
  | trailingCharacters
  /-- A pin does not name a version. -/
  | versionUnavailable
  /-- A cause stated in words. -/
  | stated (message : List Char)
deriving DecidableEq

/-- The words for a cause. -/
def Cause.message : Cause → List Char
  | platformNotFound => "valid platform name not found".toList
  | listNotFound => "list of platforms not found".toList
  | listMalformed => "syntax error in platforms list".toList
  | versionMissing c => "expected version after '".toList ++ c.symbol.toList ++ ['\'']
  | versionInvalid t => "invalid version '".toList ++ t ++ ['\'']
  | quoteUnterminated => "unterminated quoted string".toList
  | pinExpected => "expected pinned version".toList
  | trailingCharacters => "unexpected trailing characters".toList
  | versionUnavailable => "Unable to retrieve version".toList
  | stated t => t

/-- A rejection and the line in which it happened, if it happened in a text. -/
structure Failure where
  /-- Why the text is rejected. -/
  cause : Cause
  /-- The line in which reading stopped. -/
  line : Option (List Char) := none
deriving DecidableEq

namespace Failure

/-- The words for the cause of a failure. -/
def message (f : Failure) : List Char := f.cause.message

/-- The message, with the line in which it arose unless that is empty. -/
def text (f : Failure) : List Char :=
  match f.line with
  | some (c :: l) => f.message ++ " in line: \"".toList ++ (c :: l) ++ ['"']
  | _ => f.message

/-- Failures that read the same are the same to a reader, whatever their causes. -/
def SameReport (f g : Failure) : Prop := f.message = g.message ∧ f.line = g.line

instance (f g : Failure) : Decidable (SameReport f g) := inferInstanceAs (Decidable (_ ∧ _))

end Failure

end DependencyClause
