import DependencyClause.Clause
import DependencyClause.Version.Reading

/-!
# Logging

Logging has a level and may have a handler that writes the records. The first configuration that
names a level sets both; every later one is read, and refused if its name is unknown, but changes
nothing. The events of a rejected clause are written if there is a handler and the level lets
records for debugging pass. Where a program names no other library of versions, clauses are read
with semantic versions.
-/

namespace DependencyClause

open Text

/-- How grave a record is. -/
inductive Level where
  | notset
  | debug
  | info
  | warning
  | error
  | critical
deriving DecidableEq

namespace Level

/-- The rank of a level. -/
def number : Level → Nat
  | notset => 0
  | debug => 10
  | info => 20
  | warning => 30
  | error => 40
  | critical => 50

/-- The names of the levels. -/
def names : List (String × Level) :=
  [("CRITICAL", critical), ("FATAL", critical), ("ERROR", error), ("WARN", warning),
   ("WARNING", warning), ("INFO", info), ("DEBUG", debug), ("NOTSET", notset)]

/-- A name that no level has. -/
structure Unknown where
  /-- The name as it was given. -/
  name : List Char
deriving DecidableEq

/-- The wording of the error. -/
def Unknown.message (e : Unknown) : List Char := "Unknown log level: ".toList ++ e.name

/-- The level with a name, whatever the name's case and the blanks around it. -/
def ofName (t : List Char) : Except Unknown Level :=
  match names.find? (·.1.toList == upperCase (trim t)) with
  | some (_, l) => .ok l
  | none => .error ⟨t⟩

/-- The name that is taken where none is given. -/
def defaultName : List Char := "WARNING".toList

/-- Records for debugging pass the level. -/
def Shows (l : Level) : Prop := l.number ≤ debug.number

instance (l : Level) : Decidable l.Shows := inferInstanceAs (Decidable (_ ≤ _))

end Level

/-- How records are treated. -/
structure Logging where
  /-- The level in force. -/
  level : Level := .warning
  /-- The number of handlers that write records. -/
  handlers : Nat := 0
  /-- The name of a level that the environment gives. -/
  environment : Option (List Char) := none
deriving DecidableEq

/-- What is done with logging. -/
inductive Logging.Step where
  /-- Sets or clears the name that the environment gives. -/
  | setEnvironment (name : Option (List Char))
  /-- Configures the level by its name. -/
  | configure (name : Option (List Char))
  /-- Reads a clause. -/
  | read (text : List Char)

variable [VersionLibrary]

/-- What a step answers. -/
inductive Logging.Reply where
  /-- The step is done. -/
  | done
  /-- The name of the level is unknown. -/
  | unknown (e : Level.Unknown)
  /-- A clause was read. -/
  | outcome (o : Outcome Clause)
deriving DecidableEq

/-- What a step leaves behind. -/
structure Logging.StepResult where
  /-- What the step answers. -/
  reply : Reply
  /-- Logging after the step. -/
  logging : Logging
  /-- The lines that the step writes, without their line feeds. -/
  lines : List (List Char) := []
deriving DecidableEq

namespace Logging

/-- The name that a configuration goes by: the one given, else that of the environment, else the
default. An empty name counts as none. -/
def effectiveName (s : Logging) (name : Option (List Char)) : List Char :=
  ((name.filter (· ≠ [])).or (s.environment.filter (· ≠ []))).getD Level.defaultName

/-- Configures the level by its name. -/
def configure (s : Logging) (name : Option (List Char)) : Except Level.Unknown Logging := do
  let l ← Level.ofName (s.effectiveName name)
  return if s.handlers = 0 then { s with level := l, handlers := 1 } else s

/-- The record of an event as a handler writes it. -/
def line (e : Event) : List Char := "[DEBUG] ".toList ++ e.message

/-- The lines that are written of some events. -/
def written (s : Logging) (trace : List Event) : List (List Char) :=
  if s.level.Shows ∧ s.handlers ≠ 0 then trace.map line else []

/-- Takes one step. -/
def step (s : Logging) : Step → StepResult
  | .setEnvironment name => { reply := .done, logging := { s with environment := name } }
  | .configure name =>
    match s.configure name with
    | .ok t => { reply := .done, logging := t }
    | .error e => { reply := .unknown e, logging := s }
  | .read t =>
    let r := Clause.read t
    { reply := .outcome r.outcome, logging := s, lines := s.written r.trace }

/-- Takes steps one after the other, and tells what each leaves behind. -/
def steps (s : Logging) : List Step → List StepResult
  | [] => []
  | a :: l => s.step a :: steps (s.step a).logging l

end Logging

end DependencyClause
