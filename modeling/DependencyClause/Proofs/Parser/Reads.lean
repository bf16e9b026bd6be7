import DependencyClause.Parser

/-!
# What a parser reads

`p.Reads c a d` says that the parser `p` reads the value `a` from the cursor `c` on and leaves the
cursor at `d`. The ways to build a parser have laws that tell what the built parser reads; with them
a parser is taken apart, or put together, step by step.
-/

namespace DependencyClause.Parser

variable {α β : Type} {p : Parser α} {c d : Cursor} {a : α}

/-- The parser reads `a` from `c` on, and leaves the cursor at `d`. -/
def Reads (p : Parser α) (c : Cursor) (a : α) (d : Cursor) : Prop :=
  (p.run c).outcome = .value a ∧ (p.run c).cursor = d

/-- A parser that ends in a value has read it. -/
theorem outcome_eq_value_iff : (p.run c).outcome = .value a ↔ ∃ d, p.Reads c a d := by
  constructor
  · exact fun h => ⟨(p.run c).cursor, h, rfl⟩
  · rintro ⟨d, h⟩
    exact h.1

@[simp] theorem reads_pure {b : α} : (pure b : Parser α).Reads c a d ↔ a = b ∧ d = c := by
  simp [Reads, eq_comm]

/-- A sequence reads what its second part reads behind what the first part has read. -/
@[simp] theorem reads_bind {f : α → Parser β} {b : β} :
    (p >>= f).Reads c b d ↔ ∃ a e, p.Reads c a e ∧ (f a).Reads e b d := by
  simp only [Reads, run_bind, Parsed.andThen]
  cases ho : (p.run c).outcome with
  | value a =>
    constructor
    · rintro ⟨hb, hd⟩
      exact ⟨a, _, ⟨rfl, rfl⟩, hb, hd⟩
    · rintro ⟨a', e, ⟨ha, he⟩, hb, hd⟩
      obtain rfl := Outcome.value.inj ha
      subst he
      exact ⟨hb, hd⟩
  | rejected f => simp
  | fault e => simp

@[simp] theorem reads_ite {b : Prop} [Decidable b] {q : Parser α} :
    (if b then p else q).Reads c a d ↔ if b then p.Reads c a d else q.Reads c a d := by
  split <;> rfl

@[simp] theorem reads_literal {l : List Char} {b : Bool} :
    (literal l).Reads c b d ↔
      b = true ∧ c.literal? l = some d ∨ b = false ∧ c.literal? l = none ∧ d = c := by
  cases h : c.literal? l with
  | none => simp [Reads, literal, h, eq_comm]
  | some e => simp [Reads, literal, h, eq_comm]

@[simp] theorem reads_scan {find? : Cursor → Option (α × Cursor)} {o : Option α} :
    (scan find?).Reads c o d ↔
      (∃ a, o = some a ∧ find? c = some (a, d)) ∨ o = none ∧ find? c = none ∧ d = c := by
  cases h : find? c with
  | none => simp [Reads, scan, h, eq_comm]
  | some found =>
    obtain ⟨b, e⟩ := found
    simp only [Reads, scan, h, Outcome.value.injEq, Option.some.injEq, Prod.mk.injEq, reduceCtorEq,
      false_and, and_false, or_false]
    constructor
    · rintro ⟨rfl, rfl⟩
      exact ⟨b, rfl, rfl, rfl⟩
    · rintro ⟨b', rfl, rfl, rfl⟩
      exact ⟨rfl, rfl⟩

@[simp] theorem reads_atEnd {b : Bool} : atEnd.Reads c b d ↔ b = c.isAtEnd ∧ d = c := by
  simp [Reads, atEnd, eq_comm]

@[simp] theorem not_reads_reject {cause : Cause} : ¬ (reject cause : Parser α).Reads c a d := by
  simp [Reads]

/-- Noting rejections changes nothing in what is read. -/
@[simp] theorem reads_noting {event : Cursor → Cause → Event} :
    (noting event p).Reads c a d ↔ p.Reads c a d := by
  simp only [Reads, noting]
  cases ho : (p.run c).outcome with
  | value b => simp [ho]
  | rejected f => simp
  | fault e => simp [ho]

/-- What is skipped within is restored behind what is read. -/
@[simp] theorem reads_skipping {s : CharSet} :
    (skipping s p).Reads c a d ↔ ∃ e, p.Reads { c with skip := s } a e ∧
      d = { e with skip := c.skip } := by
  constructor
  · rintro ⟨ha, rfl⟩
    exact ⟨_, ⟨ha, rfl⟩, rfl⟩
  · rintro ⟨e, ⟨ha, rfl⟩, rfl⟩
    exact ⟨ha, rfl⟩

end DependencyClause.Parser
