import DependencyClause.Proofs.Parser.Behind
import DependencyClause.Version.Reading

/-!
# Sessions behind a prefix

What a session finds depends only on what lies ahead of the cursor. A session that asks for no
location is taken behind a prefix that folds singly step by step as it is taken without the prefix,
whatever the text ahead folds to and wherever the cursor is led.
-/

namespace DependencyClause

open Text Cursor

section Session

variable [VersionLibrary] {p : List Char} {c : Cursor}

mutual

/-- The second reply is the first one behind the prefix. -/
inductive Reply.Alike (p : List Char) : Reply → Reply → Prop where
  /-- Nothing but the cursor is changed. -/
  | done : Reply.Alike p .done .done
  /-- A literal is passed over in both texts or in neither. -/
  | matched (b : Bool) : Reply.Alike p (.matched b) (.matched b)
  /-- The same text is taken. -/
  | taken (t : Option (List Char)) : Reply.Alike p (.taken t) (.taken t)
  /-- Failures that are alike. -/
  | failure {f g : Failure} (h : f.Alike g) : Reply.Alike p (.failure f) (.failure g)
  /-- The same target is read, or it fails in the same way. -/
  | outcome {o o' : Outcome Found} (h : o.Alike p.length o') :
      Reply.Alike p (.outcome o) (.outcome o')
  /-- The same is observed in a block, which is left in the same way. -/
  | block {l l' : List Observation} (i : Bool) (h : Reply.AllAlike p l l') :
      Reply.Alike p (.block l i) (.block l' i)

/-- The second observations are, one by one, the first ones behind the prefix. -/
inductive Reply.AllAlike (p : List Char) : List Observation → List Observation → Prop where
  /-- Nothing is observed. -/
  | nil : Reply.AllAlike p [] []
  /-- A reply, and the cursor at the same place behind the prefix. -/
  | cons {r s : Reply} {l l' : List Observation} (c : Cursor) (hr : Reply.Alike p r s)
      (hl : Reply.AllAlike p l l') : Reply.AllAlike p ((r, c) :: l) ((s, c.behind p) :: l')

end

/-- The second result of a step is the first one behind the prefix. -/
structure StepResult.Alike (p : List Char) (r s : StepResult) : Prop where
  /-- The replies are alike. -/
  reply : r.reply.Alike p s.reply
  /-- The cursor is at the same place behind the prefix. -/
  cursor_eq : s.cursor = r.cursor.behind p
  /-- The events are the same, but for offsets. -/
  trace_eq : s.trace = r.trace.map (Event.behind p.length)

/-- The second result of a session is the first one behind the prefix. -/
structure SessionResult.Alike (p : List Char) (r s : SessionResult) : Prop where
  /-- The same is observed step by step. -/
  observations : Reply.AllAlike p r.observations s.observations
  /-- The cursor is at the same place behind the prefix. -/
  cursor_eq : s.cursor = r.cursor.behind p
  /-- The events are the same, but for offsets. -/
  trace_eq : s.trace = r.trace.map (Event.behind p.length)

namespace StepResult

theorem alike_ofScan (o : Option (List Char × Cursor)) :
    (ofScan c o).Alike p (ofScan (c.behind p) (o.map fun r => (r.1, r.2.behind p))) := by
  cases o with
  | none => exact ⟨.taken none, rfl, rfl⟩
  | some found => exact ⟨.taken _, rfl, rfl⟩

theorem alike_ofLiteral (o : Option Cursor) :
    (ofLiteral c o).Alike p (ofLiteral (c.behind p) (o.map (Cursor.behind p))) := by
  cases o with
  | none => exact ⟨.matched false, rfl, rfl⟩
  | some d => exact ⟨.matched true, rfl, rfl⟩

theorem alike_ofParsed {r s : Parsed Found} (h : r.Alike p s) : (ofParsed r).Alike p (ofParsed s) :=
  ⟨.outcome h.outcome, h.cursor_eq, h.trace_eq⟩

end StepResult

namespace Step

mutual

/-- Neither the step nor a step in its blocks asks for a location. -/
def Relative : Step → Prop
  | moveTo _ => False
  | withCase _ steps _ => AllRelative steps
  | skipping _ steps _ => AllRelative steps
  | literal _ | run _ | runUpTo _ | upTo _ | setCase _ | report _ | read _ => True

/-- None of the steps asks for a location. -/
def AllRelative : List Step → Prop
  | [] => True
  | step :: steps => step.Relative ∧ AllRelative steps

end

mutual

/-- A step that asks for no location is taken behind the prefix as it is taken without it. -/
theorem take_alike (hp : ∀ x ∈ p, FoldsSingly x) : (step : Step) → step.Relative →
    (c : Cursor) → (step.take c).Alike p (step.take (c.behind p))
  | literal l, _, c => by
    rw [take, take, literal?_behind]
    exact StepResult.alike_ofLiteral _
  | run k, _, c => by
    rw [take, take, run?_behind]
    exact StepResult.alike_ofScan _
  | runUpTo k, _, c => by
    rw [take, take, runUpTo?_behind]
    exact StepResult.alike_ofScan _
  | upTo l, _, c => by
    rw [take, take, upTo?_behind hp]
    exact StepResult.alike_ofScan _
  | moveTo n, h, c => by
    rw [Relative] at h
    exact h.elim
  | setCase b, _, c => by
    rw [take, take]
    exact ⟨.done, rfl, rfl⟩
  | report m, _, c => by
    rw [take, take]
    exact ⟨.failure (c.failure_alike _), rfl, rfl⟩
  | read t, _, c => by
    rw [take, take]
    exact StepResult.alike_ofParsed (t.parser_blindTo hp)
  | withCase b steps i, h, c => by
    rw [Relative] at h
    have hinner := takeAll_alike hp steps h { c with caseSensitive := b }
    rw [take, take]
    exact
      { reply := .block i hinner.observations
        cursor_eq :=
          congrArg (fun d : Cursor => { d with caseSensitive := c.caseSensitive }) hinner.cursor_eq
        trace_eq := hinner.trace_eq }
  | skipping k steps i, h, c => by
    rw [Relative] at h
    have hinner := takeAll_alike hp steps h { c with skip := k }
    rw [take, take]
    exact
      { reply := .block i hinner.observations
        cursor_eq := congrArg (fun d : Cursor => { d with skip := c.skip }) hinner.cursor_eq
        trace_eq := hinner.trace_eq }

/-- Steps that ask for no location are taken behind the prefix as they are taken without it. -/
theorem takeAll_alike (hp : ∀ x ∈ p, FoldsSingly x) : (steps : List Step) → AllRelative steps →
    (c : Cursor) → (takeAll steps c).Alike p (takeAll steps (c.behind p))
  | [], _, c => by
    rw [takeAll, takeAll]
    exact ⟨.nil, rfl, rfl⟩
  | step :: steps, h, c => by
    rw [AllRelative] at h
    have hfirst := take_alike hp step h.1 c
    have hrest := takeAll_alike hp steps h.2 (step.take c).cursor
    rw [takeAll, takeAll, hfirst.cursor_eq]
    refine ⟨.cons _ hfirst.reply hrest.observations, hrest.cursor_eq, ?_⟩
    simp only [hfirst.trace_eq, hrest.trace_eq, List.map_append]

end

/-- A session that asks for no location finds in a text behind a prefix that folds singly, step by
step, what it finds in the text alone, and its cursor is further on by the length of the prefix. -/
theorem session_behind_prefix {p : List Char} (hp : ∀ x ∈ p, FoldsSingly x) (t : List Char)
    (b : Bool) (k : CharSet) {steps : List Step} (hsteps : AllRelative steps) :
    (takeAll steps { text := t, caseSensitive := b, skip := k }).Alike p
      (takeAll steps { text := p ++ t, location := p.length, caseSensitive := b, skip := k }) :=
  takeAll_alike hp steps hsteps { text := t, caseSensitive := b, skip := k }

end Step

end Session

/-- In a block that is left by an interruption two letters match a letter that folds to two; the
cursor is past the end then, and a pin that is read in a further block faults. -/
theorem Step.session_behind_two_lines :
    (∀ x ∈ "==\né ".toList, FoldsSingly x) ∧
      (takeAll [withCase false [literal "SS".toList] true, skipping ∅ [read .pin] false]
        { text := "ß".toList, caseSensitive := true }).cursor.location = 2 ∧
      (takeAll [withCase false [literal "SS".toList] true, skipping ∅ [read .pin] false]
        { text := "ß".toList, caseSensitive := true }).Alike "==\né ".toList
      (takeAll [withCase false [literal "SS".toList] true, skipping ∅ [read .pin] false]
        { text := "==\né ß".toList, location := 5, caseSensitive := true }) := by
  have hp : ∀ x ∈ "==\né ".toList, FoldsSingly x := forall_mem_of_all (by decide)
  have hsteps : AllRelative [withCase false [literal "SS".toList] true,
      skipping ∅ [read .pin] false] := by
    simp only [AllRelative, Relative, and_self]
  exact ⟨hp, by decide +kernel, session_behind_prefix hp "ß".toList true .blanks hsteps⟩

end DependencyClause
