import DependencyClause.Proofs.Cursor.Behind
import DependencyClause.Proofs.Parser.Compositional
import DependencyClause.Proofs.Parser.Return

/-!
# Parsers behind a prefix

A prefix that folds singly makes no difference to a parser that starts behind it: the parser ends in
the same way and leaves its cursor at the same place behind the prefix. Only the line that a failure
quotes may start earlier, and the offsets in faults and events are offsets in the longer text.
-/

namespace DependencyClause

open Text Cursor

variable {α β : Type} {p : List Char} {c : Cursor}

/-- The event as it is noted behind a prefix of the given length. -/
def Event.behind (n : Nat) : Event → Event
  | platformNotFound offset ahead => platformNotFound (n + offset) ahead
  | listRejected offset cause => listRejected (n + offset) cause
  | constraintRejected offset cause => constraintRejected (n + offset) cause
  | clauseRejected text cause => clauseRejected text cause

/-- The second failure is the first one behind a prefix: its line may start earlier. -/
structure Failure.Alike (f g : Failure) : Prop where
  /-- The causes are the same. -/
  cause_eq : g.cause = f.cause
  /-- Both failures quote a line, and the lines end alike. -/
  line : ∃ l l', f.line = some l ∧ g.line = some l' ∧ l <:+ l'

theorem Cursor.failure_alike (c : Cursor) (cause : Cause) :
    Failure.Alike { cause := cause, line := some c.currentLine }
      { cause := cause, line := some (c.behind p).currentLine } :=
  ⟨rfl, _, _, rfl, rfl, currentLine_behind⟩

/-- What a layer within a clause notes behind a prefix differs in the offset only. -/
theorem Layer.event_behind {m : Layer} (hm : m ≠ .clause) (cause : Cause) :
    m.event (c.behind p) cause = (m.event c cause).behind p.length := by
  cases m with
  | platform => exact congrArg (Event.platformNotFound _) remaining_behind
  | platformList => rfl
  | constraint => rfl
  | clause => exact absurd rfl hm

/-- The second outcome is the first one behind a prefix of the given length. -/
inductive Outcome.Alike (n : Nat) : Outcome α → Outcome α → Prop where
  /-- The same value. -/
  | value (a : α) : Alike n (.value a) (.value a)
  /-- Failures that are alike. -/
  | rejected {f g : Failure} (h : f.Alike g) : Alike n (.rejected f) (.rejected g)
  /-- The same fault, at an offset in the longer text. -/
  | fault (l : Int) : Alike n (.fault ⟨l⟩) (.fault ⟨n + l⟩)

/-- The second result is the first one behind the prefix. -/
structure Parsed.Alike (p : List Char) (r s : Parsed α) : Prop where
  /-- The outcomes are alike. -/
  outcome : r.outcome.Alike p.length s.outcome
  /-- The cursor is at the same place behind the prefix. -/
  cursor_eq : s.cursor = r.cursor.behind p
  /-- The events are the same, but for offsets. -/
  trace_eq : s.trace = r.trace.map (Event.behind p.length)

/-- What goes on alike from a value goes on alike from results that are alike. -/
theorem Parsed.Alike.andThen {r s : Parsed α} {next : α → Cursor → Parsed β} (h : r.Alike p s)
    (hnext : ∀ a, r.outcome = .value a →
      (next a r.cursor).Alike p (next a (r.cursor.behind p))) :
    (r.andThen next).Alike p (s.andThen next) := by
  obtain ⟨o, d, t⟩ := r
  obtain ⟨o', d', t'⟩ := s
  obtain ⟨ho, rfl, rfl⟩ := h
  cases ho with
  | value a =>
    have hrest := hnext a rfl
    refine ⟨hrest.outcome, hrest.cursor_eq, ?_⟩
    simp only [andThen_value, List.map_append, hrest.trace_eq]
  | rejected h => exact ⟨.rejected h, rfl, rfl⟩
  | fault l => exact ⟨.fault l, rfl, rfl⟩

namespace Parser

/-- Started at the cursor, the parser is blind to the prefix when that is put in front. -/
def BlindTo (p : List Char) (q : Parser α) (c : Cursor) : Prop :=
  (q.run c).Alike p (q.run (c.behind p))

/-- A scan is blind to a prefix behind which it finds the same. -/
theorem blindTo_scan {find? : Cursor → Option (α × Cursor)}
    (h : find? (c.behind p) = (find? c).map fun r => (r.1, r.2.behind p)) :
    (scan find?).BlindTo p c := by
  simp only [BlindTo, scan, h]
  cases find? c with
  | none => exact ⟨.value _, rfl, rfl⟩
  | some found => exact ⟨.value _, rfl, rfl⟩

theorem blindTo_literal (l : List Char) : (literal l).BlindTo p c := by
  simp only [BlindTo, literal, literal?_behind]
  cases c.literal? l with
  | none => exact ⟨.value _, rfl, rfl⟩
  | some d => exact ⟨.value _, rfl, rfl⟩

/-- The end of the text is at the same place behind the prefix. -/
theorem blindTo_atEnd : atEnd.BlindTo p c := by
  have hend : (c.behind p).isAtEnd = c.isAtEnd := by
    rw [isAtEnd, isAtEnd, start_behind, Bool.eq_iff_iff]
    simp [behind]
  simp only [BlindTo, atEnd, hend]
  exact ⟨.value _, rfl, rfl⟩

theorem blindTo_bareVersion [VersionLibrary] : VersionConstraint.bareVersion.BlindTo p c := by
  have hbare : VersionConstraint.bare? (c.behind p) =
      (VersionConstraint.bare? c).map fun r => (r.1, r.2.behind p) := by
    rw [VersionConstraint.bare?, VersionConstraint.bare?, run?_behind]
    cases c.run? .versionCharacters with
    | none => rfl
    | some found => cases h : Version.ofTag? found.1 <;> simp [h]
  rw [BlindTo, VersionConstraint.run_bareVersion, VersionConstraint.run_bareVersion, hbare]
  cases VersionConstraint.bare? c with
  | none => exact ⟨.value _, rfl, rfl⟩
  | some found => exact ⟨.value _, rfl, rfl⟩

/-- A bare pin is put back behind the prefix, or is past the end there as well. -/
theorem blindTo_barePin : Pin.bare.BlindTo p c := by
  have hbare : Pin.bare? (c.behind p) = (Pin.bare? c).map fun r => (r.1, r.2.behind p) := by
    rw [Pin.bare?, Pin.bare?, runUpTo?_behind]
    cases c.runUpTo? .blanks with
    | none => rfl
    | some found => cases h : Pin.startsReserved found.1 <;> simp [h]
  rw [BlindTo, Pin.run_bare, Pin.run_bare, hbare]
  cases Pin.bare? c with
  | some found => exact ⟨.value _, rfl, rfl⟩
  | none =>
    simp only [Option.map_none, inText_behind]
    split
    · exact ⟨.rejected (c.failure_alike _), rfl, rfl⟩
    · exact ⟨.fault _, rfl, rfl⟩

/-- The setting that is restored is the same behind the prefix. -/
theorem blindTo_withCase {q : Parser α} {b : Bool}
    (hq : q.BlindTo p { c with caseSensitive := b }) : (withCase b q).BlindTo p c where
  outcome := hq.outcome
  cursor_eq := congrArg (fun d : Cursor => { d with caseSensitive := c.caseSensitive }) hq.cursor_eq
  trace_eq := hq.trace_eq

theorem blindTo_skipping {q : Parser α} {k : CharSet} (hq : q.BlindTo p { c with skip := k }) :
    (skipping k q).BlindTo p c where
  outcome := hq.outcome
  cursor_eq := congrArg (fun d : Cursor => { d with skip := c.skip }) hq.cursor_eq
  trace_eq := hq.trace_eq

theorem blindTo_noting {q : Parser α} {m : Layer} (hm : m ≠ .clause) (hq : q.BlindTo p c) :
    (noting (fun d cause => m.event d cause) q).BlindTo p c := by
  rw [BlindTo] at hq ⊢
  simp only [noting]
  generalize q.run c = r at hq
  generalize q.run (c.behind p) = s at hq
  obtain ⟨o, d, t⟩ := r
  obtain ⟨o', d', t'⟩ := s
  obtain ⟨ho, rfl, rfl⟩ := hq
  cases ho with
  | value a => exact ⟨.value a, rfl, rfl⟩
  | fault l => exact ⟨.fault l, rfl, rfl⟩
  | @rejected f g h =>
    refine ⟨.rejected h, rfl, ?_⟩
    simp only [h.cause_eq, Layer.event_behind hm, List.map_append, List.map_cons, List.map_nil]

/-- Blindness to a prefix that folds singly is compositional. -/
theorem compositional_blindTo (hp : ∀ x ∈ p, FoldsSingly x) :
    Compositional fun _ => BlindTo p where
  pure _ _ := ⟨.value _, rfl, rfl⟩
  reject _ _ c := ⟨.rejected (c.failure_alike _), rfl, rfl⟩
  literal l _ := blindTo_literal l
  atEnd _ := blindTo_atEnd
  choose? spellings _ := blindTo_scan (choose?_behind spellings)
  run? k _ := blindTo_scan (run?_behind k)
  upTo? _ _ := blindTo_scan (upTo?_behind hp)
  bareVersion _ := blindTo_bareVersion
  bind hq hf := hq.andThen fun a ha => hf a ha
  withCase _ hq := blindTo_withCase hq
  skipping _ hq := blindTo_skipping hq
  noting hm _ hq := blindTo_noting hm hq

end Parser

/-- Every target is read blindly behind a prefix that folds singly. -/
theorem Target.parser_blindTo [VersionLibrary] (t : Target) (hp : ∀ x ∈ p, FoldsSingly x) :
    t.parser.BlindTo p c :=
  (Parser.compositional_blindTo hp).target t fun _ => Parser.blindTo_barePin

end DependencyClause
