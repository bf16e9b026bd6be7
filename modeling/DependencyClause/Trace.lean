import DependencyClause.Failure
import DependencyClause.Text.Digit
import DependencyClause.Text.Quoted

/-!
# Traces

Every layer of reading notes an event when it rejects a text. An event tells where and why; its
message is one line, since the text in it is quoted. `Context.complete` gives the fields of a record
the form that every record has.
-/

namespace DependencyClause

open Text

/-- A layer of reading that notes its rejections. -/
inductive Layer where
  /-- A single platform. -/
  | platform
  /-- A list of platforms. -/
  | platformList
  /-- The version constraint of a clause. -/
  | constraint
  /-- A whole clause. -/
  | clause
deriving DecidableEq

namespace Layer

/-- The logger that the layer writes to. -/
def logger : Layer → String
  | platform => "depspec.platform"
  | platformList => "depspec.platform_specifier"
  | constraint => "depspec.version"
  | clause => "depspec.specifier"

/-- The name of the layer in its records. -/
def component : Layer → String
  | platform => "platform"
  | platformList => "platform_specifier"
  | constraint => "version_specifier"
  | clause => "specifier"

/-- What a rejection by the layer amounts to. -/
def outcome : Layer → String
  | platform => "not_found"
  | _ => "failure"

end Layer

/-- A rejection, as one layer of reading notes it. -/
inductive Event where
  /-- No platform lies ahead of the offset. -/
  | platformNotFound (offset : Nat) (ahead : List Char)
  /-- A platform list is rejected at the offset. -/
  | listRejected (offset : Nat) (cause : Cause)
  /-- A version constraint is rejected at the offset. -/
  | constraintRejected (offset : Nat) (cause : Cause)
  /-- A clause is rejected. -/
  | clauseRejected (text : List Char) (cause : Cause)
deriving DecidableEq

namespace Event

/-- The layer that notes the event. -/
def layer : Event → Layer
  | platformNotFound .. => .platform
  | listRejected .. => .platformList
  | constraintRejected .. => .constraint
  | clauseRejected .. => .clause

/-- The greatest number of characters that a message quotes of the text ahead. -/
def shownAhead : Nat := 20

/-- The words of an event. -/
def message : Event → List Char
  | platformNotFound offset ahead =>
    "No platform at offset ".toList ++ decimal offset ++ ": ".toList ++
      quote (ahead.take shownAhead)
  | listRejected offset cause =>
    "Platform list rejected at offset ".toList ++ decimal offset ++ ": ".toList ++ cause.message
  | constraintRejected offset cause =>
    "Version specifier rejected at offset ".toList ++ decimal offset ++ ": ".toList ++ cause.message
  | clauseRejected text cause =>
    "Specifier ".toList ++ quote text ++ " rejected: ".toList ++ cause.message

end Event

/-- Named fields of a record, in order; a field may be void. -/
abbrev Context (α : Type) := List (String × Option α)

namespace Context

variable {α : Type}

/-- Sets a field: in its place if the context has it, and else at the end. -/
def put (context : Context α) (key : String) (value : Option α) : Context α :=
  match context with
  | [] => [(key, value)]
  | (k, v) :: rest => if k = key then (k, value) :: rest else (k, v) :: put rest key value

/-- The fields that every record has, in order. -/
def required : List String := ["event", "component", "action", "outcome"]

/-- The context with one field, which stays as it is if it is there. -/
def ensure (context : Context α) (key : String) : Context α :=
  if context.any (·.1 == key) then context else context ++ [(key, none)]

/-- The fields that are not void, of each name the last value, and after them the required fields
that are missing. -/
def complete (fields : Context α) : Context α :=
  required.foldl ensure <|
    (fields.foldl (fun context field => put context field.1 field.2) []).filter (·.2.isSome)

end Context

/-- The fields of an event's record. -/
def Event.context (e : Event) : Context String :=
  Context.complete [("event", some "parse_error"), ("component", some e.layer.component),
    ("action", some "parse"), ("outcome", some e.layer.outcome)]

end DependencyClause
