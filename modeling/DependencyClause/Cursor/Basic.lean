import DependencyClause.Text.CaseFold.Basic
import DependencyClause.Text.CharSet
import DependencyClause.Text.Occurrence

/-!
# Cursors

A cursor walks through a text. Each scan first passes over the characters to skip, matches a literal
or takes a run of characters, and moves the cursor only if it finds something. Unless the cursor
minds case, texts are compared by their case foldings; a literal then moves the cursor by its own
length, so where a folding changes the length of a text the cursor may come to lie past the end.
-/

namespace DependencyClause

open Text

/-- A place in a text and how the text is scanned from there. -/
structure Cursor where
  /-- The text that is scanned. -/
  text : List Char
  /-- The number of characters before the cursor. -/
  location : Nat := 0
  /-- Whether literals match only as they are written. -/
  caseSensitive : Bool := false
  /-- The characters that a scan passes over before it starts. -/
  skip : CharSet := .blanks
deriving DecidableEq

/-- A location outside the text was asked for. -/
structure OutOfRange where
  /-- The location that was asked for. -/
  location : Int
deriving DecidableEq

/-- The wording of the error. -/
def OutOfRange.message (e : OutOfRange) : List Char :=
  "location ".toList ++ (toString e.location).toList ++ " out of range".toList

namespace Cursor

/-- The text from the cursor on. -/
def remaining (c : Cursor) : List Char := c.text.drop c.location

/-- The location behind the characters to skip, where the next scan starts. -/
def start (c : Cursor) : Nat := c.location + (c.remaining.takeWhile (· ∈ c.skip)).length

/-- The text from the start of the next scan on. -/
def ahead (c : Cursor) : List Char := c.text.drop c.start

/-- Whether only characters to skip lie between the cursor and the end of the text. -/
def isAtEnd (c : Cursor) : Bool := c.start == c.text.length

/-- The part of the cursor's line before the cursor. -/
def lineBefore (c : Cursor) : List Char :=
  ((c.text.take c.location).reverse.takeWhile (· != '\n')).reverse

/-- The part of the cursor's line from the cursor on. -/
def lineAfter (c : Cursor) : List Char := c.remaining.takeWhile (· != '\n')

/-- The line that holds the cursor, without its line feed. -/
def currentLine (c : Cursor) : List Char := c.lineBefore ++ c.lineAfter

/-- Puts the cursor at a location, which has to lie in the text. -/
def moveTo (c : Cursor) (location : Int) : Except OutOfRange Cursor :=
  if 0 ≤ location ∧ location ≤ c.text.length then .ok { c with location := location.toNat }
  else .error ⟨location⟩

/-- The text as it is compared: folded, unless the cursor minds case. -/
def cased (c : Cursor) (t : List Char) : List Char := if c.caseSensitive then t else fold t

/-- Passes over a literal that lies ahead. -/
def literal? (c : Cursor) (literal : List Char) : Option Cursor :=
  if literal ≠ [] ∧ c.cased (c.ahead.take literal.length) = c.cased literal then
    some { c with location := c.start + literal.length }
  else none

/-- Takes the longest run ahead whose characters have the property, unless it is empty. -/
def runWhile? (c : Cursor) (p : Char → Bool) : Option (List Char × Cursor) :=
  let run := c.ahead.takeWhile p
  if run = [] then none else some (run, { c with location := c.start + run.length })

/-- Takes the longest run ahead of characters from the set, unless it is empty. -/
def run? (c : Cursor) (s : CharSet) : Option (List Char × Cursor) := c.runWhile? (· ∈ s)

/-- Takes the text ahead up to a character from the set, unless it is empty. -/
def runUpTo? (c : Cursor) (s : CharSet) : Option (List Char × Cursor) := c.runWhile? (¬ · ∈ s)

/-- The location up to which `upTo?` takes the text: where the literal occurs in the text as it is
compared, or the end of the text. -/
def stop (c : Cursor) (literal : List Char) : Nat :=
  (occurrenceFrom? (c.cased literal) (c.cased c.text) c.start).getD c.text.length

/-- Takes the text ahead up to the literal, or up to the end where the literal does not occur. -/
def upTo? (c : Cursor) (literal : List Char) : Option (List Char × Cursor) :=
  if c.stop literal = c.start then none
  else some ((c.text.take (c.stop literal)).drop c.start, { c with location := c.stop literal })

/-- Passes over the first spelling in the list that lies ahead, and tells what it stands for. -/
def choose? {α : Type} (c : Cursor) (spellings : List (List Char × α)) : Option (α × Cursor) :=
  spellings.findSome? fun s => (c.literal? s.1).map fun c' => (s.2, c')

end Cursor

end DependencyClause
