import DependencyClause.Clause

/-!
# Sessions

A session is a run of steps on one cursor. After every step the reply and the cursor are observed,
so that a session can be compared with another one step by step. A step that fails is answered and
the session goes on. Blocks change a setting for the steps within and restore it, also when they
are left by an interruption.
-/

namespace DependencyClause

/-- Something that can be read from a cursor. -/
inductive Target where
  | platform
  | platformPin
  | restriction
  | pin
  | constraint
  | clause
  | resolvedPin
deriving DecidableEq

variable [VersionLibrary]

/-- Something that was read from a cursor. -/
inductive Found where
  | platform (p : Platform)
  | platformPin (p : PlatformPin)
  | restriction (r : PlatformRestriction)
  | pin (p : Pin)
  | constraint (k : VersionConstraint)
  | clause (k : Clause)
  | resolvedPin (r : ResolvedPin)
deriving DecidableEq

/-- The parser for a target. -/
def Target.parser : Target → Parser Found
  | platform => return .platform (← Platform.parser)
  | platformPin => return .platformPin (← PlatformPin.parser)
  | restriction => return .restriction (← PlatformRestriction.parser)
  | pin => return .pin (← Pin.parser)
  | constraint => return .constraint (← VersionConstraint.parser)
  | clause => return .clause (← Clause.parser)
  | resolvedPin => return .resolvedPin (← ResolvedPin.parser)

/-- What is done with a cursor. -/
inductive Step where
  /-- Passes over a literal. -/
  | literal (literal : List Char)
  /-- Takes a run of characters from a set. -/
  | run (characters : CharSet)
  /-- Takes the text up to a character from a set. -/
  | runUpTo (characters : CharSet)
  /-- Takes the text up to a literal. -/
  | upTo (literal : List Char)
  /-- Puts the cursor at a location. -/
  | moveTo (location : Int)
  /-- Sets whether the cursor minds case. -/
  | setCase (sensitive : Bool)
  /-- Makes a failure with the line that holds the cursor. -/
  | report (message : List Char)
  /-- Reads a target. -/
  | read (target : Target)
  /-- Takes steps while the cursor minds case or does not. -/
  | withCase (sensitive : Bool) (steps : List Step) (interrupted : Bool)
  /-- Takes steps while the cursor skips the characters of a set. -/
  | skipping (characters : CharSet) (steps : List Step) (interrupted : Bool)

/-- What a step answers. -/
inductive Reply where
  /-- The step only changes the cursor. -/
  | done
  /-- Whether a literal was passed over. -/
  | matched (b : Bool)
  /-- The text that was taken, if any. -/
  | taken (t : Option (List Char))
  /-- The location that was asked for lies outside the text. -/
  | fault (e : OutOfRange)
  /-- A failure was made. -/
  | failure (f : Failure)
  /-- A target was read. -/
  | outcome (o : Outcome Found)
  /-- What was observed in a block, and whether it was left by an interruption. -/
  | block (observations : List (Reply × Cursor)) (interrupted : Bool)

/-- A reply and the cursor after the step. -/
abbrev Observation := Reply × Cursor

/-- What a step leaves behind. -/
structure StepResult where
  /-- What the step answers. -/
  reply : Reply
  /-- The cursor after the step. -/
  cursor : Cursor
  /-- The events noted in the step. -/
  trace : List Event := []

/-- What a session leaves behind. -/
structure SessionResult where
  /-- What was observed after each step. -/
  observations : List Observation
  /-- The cursor after the last step. -/
  cursor : Cursor
  /-- The events noted, in order. -/
  trace : List Event

/-- Answers what a scan takes; the cursor stays where it takes nothing. -/
def StepResult.ofScan (c : Cursor) : Option (List Char × Cursor) → StepResult
  | some (t, d) => { reply := .taken (some t), cursor := d }
  | none => { reply := .taken none, cursor := c }

/-- Answers whether a literal is passed over; the cursor stays where it is not. -/
def StepResult.ofLiteral (c : Cursor) : Option Cursor → StepResult
  | some d => { reply := .matched true, cursor := d }
  | none => { reply := .matched false, cursor := c }

/-- Answers a move; the cursor stays where the location is out of range. -/
def StepResult.ofMove (c : Cursor) : Except OutOfRange Cursor → StepResult
  | .ok d => { reply := .done, cursor := d }
  | .error e => { reply := .fault e, cursor := c }

/-- Answers what a parser leaves behind. -/
def StepResult.ofParsed (r : Parsed Found) : StepResult :=
  { reply := .outcome r.outcome, cursor := r.cursor, trace := r.trace }

mutual

/-- Takes one step. -/
def Step.take : Step → Cursor → StepResult
  | literal l, c => .ofLiteral c (c.literal? l)
  | run s, c => .ofScan c (c.run? s)
  | runUpTo s, c => .ofScan c (c.runUpTo? s)
  | upTo l, c => .ofScan c (c.upTo? l)
  | moveTo n, c => .ofMove c (c.moveTo n)
  | setCase b, c => { reply := .done, cursor := { c with caseSensitive := b } }
  | report m, c =>
    { reply := .failure { cause := .stated m, line := some c.currentLine }, cursor := c }
  | read t, c => .ofParsed (t.parser.run c)
  | withCase b steps interrupted, c =>
    let r := Step.takeAll steps { c with caseSensitive := b }
    { reply := .block r.observations interrupted
      cursor := { r.cursor with caseSensitive := c.caseSensitive }
      trace := r.trace }
  | skipping s steps interrupted, c =>
    let r := Step.takeAll steps { c with skip := s }
    { reply := .block r.observations interrupted
      cursor := { r.cursor with skip := c.skip }
      trace := r.trace }

/-- Takes steps one after the other. -/
def Step.takeAll : List Step → Cursor → SessionResult
  | [], c => { observations := [], cursor := c, trace := [] }
  | step :: steps, c =>
    let r := step.take c
    let s := Step.takeAll steps r.cursor
    { observations := (r.reply, r.cursor) :: s.observations
      cursor := s.cursor
      trace := r.trace ++ s.trace }

end

end DependencyClause
