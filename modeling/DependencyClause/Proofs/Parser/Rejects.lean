import DependencyClause.Proofs.Parser.Reads

/-!
# What a parser rejects

`p.Rejects c f d` says that the parser `p` rejects the text ahead of the cursor `c` with the failure
`f` and leaves the cursor at `d`. The ways to build a parser have laws for this as they have for
what is read: a sequence rejects a text where its first part does, or its second part behind what
the first part has read.
-/

namespace DependencyClause.Parser

variable {α β : Type} {p : Parser α} {c d : Cursor} {f : Failure}

/-- The parser rejects what lies ahead of `c` with the failure `f`, and leaves the cursor at `d`. -/
def Rejects (p : Parser α) (c : Cursor) (f : Failure) (d : Cursor) : Prop :=
  (p.run c).outcome = .rejected f ∧ (p.run c).cursor = d

@[simp] theorem not_rejects_pure {a : α} : ¬ (pure a : Parser α).Rejects c f d := by
  simp [Rejects]

@[simp] theorem rejects_reject {cause : Cause} : (reject cause : Parser α).Rejects c f d ↔
    f = { cause := cause, line := some c.currentLine } ∧ d = c := by
  simp [Rejects, eq_comm]

@[simp] theorem rejects_bind {q : α → Parser β} : (p >>= q).Rejects c f d ↔
    p.Rejects c f d ∨ ∃ a e, p.Reads c a e ∧ (q a).Rejects e f d := by
  simp only [Rejects, Reads, run_bind, Parsed.andThen]
  cases ho : (p.run c).outcome with
  | value a =>
    constructor
    · exact fun h => Or.inr ⟨a, _, ⟨rfl, rfl⟩, h⟩
    · rintro (⟨hf, -⟩ | ⟨a', e, ⟨ha, rfl⟩, h⟩)
      · exact absurd hf (by simp)
      · obtain rfl := Outcome.value.inj ha
        exact h
  | rejected g => simp
  | fault e => simp

@[simp] theorem rejects_ite {b : Prop} [Decidable b] {q : Parser α} :
    (if b then p else q).Rejects c f d ↔ if b then p.Rejects c f d else q.Rejects c f d := by
  split <;> rfl

/-- A literal that does not lie ahead is no rejection. -/
@[simp] theorem not_rejects_literal {l : List Char} : ¬ (literal l).Rejects c f d := by
  cases h : c.literal? l with
  | none => simp [Rejects, literal, h]
  | some e => simp [Rejects, literal, h]

/-- Nor is a scan that finds nothing. -/
@[simp] theorem not_rejects_scan {find? : Cursor → Option (α × Cursor)} :
    ¬ (scan find?).Rejects c f d := by
  cases h : find? c with
  | none => simp [Rejects, scan, h]
  | some found => simp [Rejects, scan, h]

@[simp] theorem not_rejects_atEnd : ¬ atEnd.Rejects c f d := by
  simp [Rejects, atEnd]

/-- Noting a rejection changes nothing in it. -/
@[simp] theorem rejects_noting {event : Cursor → Cause → Event} :
    (noting event p).Rejects c f d ↔ p.Rejects c f d := by
  simp only [Rejects, noting]
  cases ho : (p.run c).outcome with
  | value a => simp [ho]
  | rejected g => simp
  | fault e => simp [ho]

/-- Whether case counts within is restored behind what is rejected. -/
@[simp] theorem rejects_withCase {b : Bool} : (withCase b p).Rejects c f d ↔
    ∃ e, p.Rejects { c with caseSensitive := b } f e ∧
      d = { e with caseSensitive := c.caseSensitive } := by
  constructor
  · rintro ⟨hf, rfl⟩
    exact ⟨_, ⟨hf, rfl⟩, rfl⟩
  · rintro ⟨e, ⟨hf, rfl⟩, rfl⟩
    exact ⟨hf, rfl⟩

/-- So is what is skipped. -/
@[simp] theorem rejects_skipping {k : CharSet} : (skipping k p).Rejects c f d ↔
    ∃ e, p.Rejects { c with skip := k } f e ∧ d = { e with skip := c.skip } := by
  constructor
  · rintro ⟨hf, rfl⟩
    exact ⟨_, ⟨hf, rfl⟩, rfl⟩
  · rintro ⟨e, ⟨hf, rfl⟩, rfl⟩
    exact ⟨hf, rfl⟩

end DependencyClause.Parser
