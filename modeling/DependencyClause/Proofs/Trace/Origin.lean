import DependencyClause.Cursor.Basic
import DependencyClause.Proofs.Text.Printable
import DependencyClause.Trace

/-!
# Where rejections arise

Every layer of reading but the outermost one is a part of another layer. A layer rejects a text for
causes of its own, and notes whatever is rejected within it where the cursor has stopped. What a
cause repeats of the text as it stands is a tag, so the words for a cause are printable.
-/

namespace DependencyClause

open Text

/-- The layer of reading a clause in which a rejection for the cause arises, if one does. -/
def Cause.origin : Cause → Option Layer
  | platformNotFound => some .platform
  | listNotFound | listMalformed => some .platformList
  | versionMissing _ | versionInvalid _ | quoteUnterminated => some .constraint
  | trailingCharacters => some .clause
  | pinExpected | versionUnavailable | stated _ => none

theorem Cause.printable_versionMissing (p : Comparison) : Printable (versionMissing p).message := by
  have hopen : Printable "expected version after '".toList := printable_of_ascii rfl
  have hsymbol : Printable p.symbol.toList := by
    cases p with
    | exactly => exact printable_of_ascii rfl
    | atLeast => exact printable_of_ascii rfl
    | compatibleWith => exact printable_of_ascii rfl
  exact (hopen.append hsymbol).append (printable_of_ascii rfl)

/-- A tag is repeated as it stands, and is printable like the words around it. -/
theorem Cause.printable_versionInvalid {t : List Char}
    (ht : ∀ x ∈ t, x ∈ CharSet.versionCharacters) : Printable (versionInvalid t).message := by
  have hopen : Printable "invalid version '".toList := printable_of_ascii rfl
  exact (hopen.append (printable_of_versionCharacters ht)).append (printable_of_ascii rfl)

namespace Layer

/-- The layer that a layer is a part of, if there is one. -/
def around : Layer → Option Layer
  | platform => some platformList
  | platformList | constraint => some clause
  | clause => none

/-- The event that a layer notes of a rejection with the cursor where it has stopped. -/
def event (c : Cursor) (cause : Cause) : Layer → Event
  | platform => .platformNotFound c.location c.remaining
  | platformList => .listRejected c.location cause
  | constraint => .constraintRejected c.location cause
  | clause => .clauseRejected c.text cause

/-- The words that the messages of a layer open with. -/
def opening : Layer → String
  | platform => "No platform"
  | platformList => "Platform list rejected"
  | constraint => "Version specifier rejected"
  | clause => "Specifier"

variable {c : Cursor} {cause : Cause} {l : Layer}

@[simp] theorem layer_event : (l.event c cause).layer = l := by cases l <;> rfl

/-- An event does not depend on whether case counts. -/
theorem event_setCase (b : Bool) : event { c with caseSensitive := b } cause = event c cause := by
  funext l
  cases l <;> rfl

/-- An event does not depend on what is skipped. -/
theorem event_setSkip (k : CharSet) : event { c with skip := k } cause = event c cause := by
  funext l
  cases l <;> rfl

/-- Every layer but that of a single platform ends its message with that of the rejection. -/
theorem message_suffix_event (hl : l ≠ .platform) :
    cause.message <:+ (l.event c cause).message := by
  cases l with
  | platform => exact absurd rfl hl
  | platformList => exact List.suffix_append _ _
  | constraint => exact List.suffix_append _ _
  | clause => exact List.suffix_append _ _

/-- Every layer but that of a whole clause tells the location of the cursor. -/
theorem offset_prefix_event (hl : l ≠ .clause) :
    l.opening.toList ++ " at offset ".toList ++ decimal c.location ++ ": ".toList <+:
      (l.event c cause).message := by
  cases l with
  | platform => exact List.prefix_append _ _
  | platformList => exact List.prefix_append _ _
  | constraint => exact List.prefix_append _ _
  | clause => exact absurd rfl hl

end Layer

end DependencyClause
