import DependencyClause.Cursor.Basic
import DependencyClause.Trace

/-!
# Parsers

A parser takes a cursor and gives an outcome, the cursor as it leaves it, and the events noted on
the way. Where an outcome is not a value, nothing that should have followed is run. The settings of
the cursor that `withCase` and `skipping` change are restored whatever the outcome is.
-/

namespace DependencyClause

/-- How a parser ends. -/
inductive Outcome (α : Type) where
  /-- The text ahead was read. -/
  | value (a : α)
  /-- The text ahead was rejected. -/
  | rejected (failure : Failure)
  /-- The cursor was to be put at a location outside the text. -/
  | fault (error : OutOfRange)
deriving DecidableEq

/-- What a parser leaves behind. -/
structure Parsed (α : Type) where
  /-- How the parser ended. -/
  outcome : Outcome α
  /-- The cursor when it ended. -/
  cursor : Cursor
  /-- The events noted, in order. -/
  trace : List Event := []
deriving DecidableEq

namespace Parsed

variable {α β : Type}

/-- Goes on from a value; any other outcome stays. -/
def andThen (r : Parsed α) (next : α → Cursor → Parsed β) : Parsed β :=
  match r.outcome with
  | .value a => { next a r.cursor with trace := r.trace ++ (next a r.cursor).trace }
  | .rejected f => { outcome := .rejected f, cursor := r.cursor, trace := r.trace }
  | .fault e => { outcome := .fault e, cursor := r.cursor, trace := r.trace }

@[simp] theorem andThen_value (a : α) (c : Cursor) (t : List Event)
    (next : α → Cursor → Parsed β) :
    ({ outcome := .value a, cursor := c, trace := t } : Parsed α).andThen next =
      { next a c with trace := t ++ (next a c).trace } := rfl

@[simp] theorem andThen_fault (e : OutOfRange) (c : Cursor) (t : List Event)
    (next : α → Cursor → Parsed β) :
    ({ outcome := .fault e, cursor := c, trace := t } : Parsed α).andThen next =
      { outcome := .fault e, cursor := c, trace := t } := rfl

end Parsed

/-- A way to read what lies ahead of a cursor. -/
structure Parser (α : Type) where
  /-- Reads from a cursor on. -/
  run : Cursor → Parsed α

namespace Parser

variable {α β : Type}

instance : Monad Parser where
  pure a := ⟨fun c => { outcome := .value a, cursor := c }⟩
  bind p f := ⟨fun c => (p.run c).andThen fun a => (f a).run⟩

@[simp] theorem run_pure (a : α) (c : Cursor) :
    (pure a : Parser α).run c = { outcome := .value a, cursor := c } := rfl

@[simp] theorem run_bind (p : Parser α) (f : α → Parser β) (c : Cursor) :
    (p >>= f).run c = (p.run c).andThen fun a => (f a).run := rfl

/-- Tells what a scan finds; the cursor stays if it finds nothing. -/
def scan (find? : Cursor → Option (α × Cursor)) : Parser (Option α) where
  run c :=
    match find? c with
    | some (a, d) => { outcome := .value (some a), cursor := d }
    | none => { outcome := .value none, cursor := c }

/-- Whether the literal lies ahead; it is passed over if it does. -/
def literal (l : List Char) : Parser Bool where
  run c :=
    match c.literal? l with
    | some d => { outcome := .value true, cursor := d }
    | none => { outcome := .value false, cursor := c }

theorem run_literal_of_some {l : List Char} {c d : Cursor} (h : c.literal? l = some d) :
    (literal l).run c = { outcome := .value true, cursor := d } := by
  simp only [literal, h]

theorem run_literal_of_none {l : List Char} {c : Cursor} (h : c.literal? l = none) :
    (literal l).run c = { outcome := .value false, cursor := c } := by
  simp only [literal, h]

/-- The location of the cursor. -/
def location : Parser Nat where
  run c := { outcome := .value c.location, cursor := c }

/-- Whether only characters to skip are left. -/
def atEnd : Parser Bool where
  run c := { outcome := .value c.isAtEnd, cursor := c }

/-- Puts the cursor at a location, which has to lie in the text. -/
def moveTo (location : Int) : Parser Unit where
  run c :=
    match c.moveTo location with
    | .ok d => { outcome := .value (), cursor := d }
    | .error e => { outcome := .fault e, cursor := c }

/-- Rejects the text, quoting the line that holds the cursor. -/
def reject (cause : Cause) : Parser α where
  run c := { outcome := .rejected { cause := cause, line := some c.currentLine }, cursor := c }

@[simp] theorem run_reject (cause : Cause) (c : Cursor) :
    (reject cause : Parser α).run c =
      { outcome := .rejected { cause := cause, line := some c.currentLine }, cursor := c } := rfl

/-- Runs a parser that minds case or does not, as told, and restores the setting. -/
def withCase (sensitive : Bool) (p : Parser α) : Parser α where
  run c :=
    let r := p.run { c with caseSensitive := sensitive }
    { r with cursor := { r.cursor with caseSensitive := c.caseSensitive } }

/-- Runs a parser that skips the given characters, and restores the setting. -/
def skipping (s : CharSet) (p : Parser α) : Parser α where
  run c :=
    let r := p.run { c with skip := s }
    { r with cursor := { r.cursor with skip := c.skip } }

/-- Notes an event if the parser rejects the text, after the events that it notes itself. -/
def noting (event : Cursor → Cause → Event) (p : Parser α) : Parser α where
  run c :=
    let r := p.run c
    match r.outcome with
    | .rejected f => { r with trace := r.trace ++ [event r.cursor f.cause] }
    | _ => r

end Parser

/-- The text after a quotation mark, up to the next one and verbatim, blanks included. The mark that
ends it is passed over. -/
def Parser.quotation : Parser (List Char) :=
  skipping ∅ do
    let body ← scan (·.upTo? ['"'])
    if ← literal ['"'] then return body.getD [] else reject .quoteUnterminated

end DependencyClause
