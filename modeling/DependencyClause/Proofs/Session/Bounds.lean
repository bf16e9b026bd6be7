import DependencyClause.Proofs.Grammar.Constraints
import DependencyClause.Proofs.Grammar.Platforms
import DependencyClause.Proofs.Parser.Onward
import DependencyClause.Session
import DependencyClause.Version.Reading

/-!
# Where a session can lead

A session on a text that folds singly keeps the cursor within the text, whatever its steps are and
however its blocks are nested and left. No scan and no reading moves the cursor back; where nothing
is found it stays, and where a text is taken nothing but the characters to skip and the text itself
is passed over.
-/

namespace DependencyClause

open Text Cursor

/-- The cursor `d` lies within the text of `c`. -/
structure Cursor.Within (c d : Cursor) : Prop where
  /-- The text is the same. -/
  text_eq : d.text = c.text
  /-- The location is one of the text. -/
  inText : d.InText

theorem Cursor.Onward.within {c d : Cursor} (h : c.Onward d) : c.Within d := ⟨h.text_eq, h.inText⟩

theorem Cursor.Within.faithful {c d : Cursor} (h : c.Within d) (hc : c.Faithful) : d.Faithful :=
  ⟨h.text_eq ▸ hc.foldsSingly, h.inText⟩

theorem Cursor.Within.trans {c d e : Cursor} (h : c.Within d) (h' : d.Within e) : c.Within e :=
  ⟨h'.text_eq.trans h.text_eq, h'.inText⟩

namespace Step

/-- A parser that stays where it reads nothing does so also where its value is wrapped. -/
private theorem stays_wrapped {α β : Type} {p : Parser α} {wrap : α → β} {c : Cursor}
    (hp : (∀ a, (p.run c).outcome ≠ .value a) → (p.run c).cursor = c)
    (h : ∀ b, ((p >>= fun a => pure (wrap a)).run c).outcome ≠ .value b) :
    ((p >>= fun a => pure (wrap a)).run c).cursor = c := by
  rw [Parser.run_bind, Parsed.andThen] at h ⊢
  cases ho : (p.run c).outcome with
  | value a =>
    rw [ho] at h
    exact absurd rfl (h (wrap a))
  | rejected f =>
    apply hp
    intro a ha
    rw [ho] at ha
    exact absurd ha (by simp)
  | fault e =>
    apply hp
    intro a ha
    rw [ho] at ha
    exact absurd ha (by simp)

section Session

variable [VersionLibrary] {c d : Cursor} {step : Step} {steps : List Step}

/-- The step scans or reads. -/
def Scans : Step → Prop
  | literal _ | run _ | runUpTo _ | upTo _ | read _ => True
  | moveTo _ | setCase _ | report _ | withCase _ _ _ | skipping _ _ _ => False

/-- The reply tells that the step has found nothing, or has been refused. -/
inductive Idle : Step → Reply → Prop where
  /-- A literal does not lie ahead. -/
  | mismatch {l : List Char} : Idle (literal l) (.matched false)
  /-- A scan takes nothing. -/
  | nothing {step : Step} : Idle step (.taken none)
  /-- A location lies outside the text. -/
  | outOfRange {n : Int} {e : OutOfRange} : Idle (moveTo n) (.fault e)
  /-- No platform is read. -/
  | noPlatform {t : Target} {o : Outcome Found} (ht : t = .platform ∨ t = .platformPin)
      (ho : ∀ a, o ≠ .value a) : Idle (read t) (.outcome o)
  /-- Any version will do. -/
  | anyVersion : Idle (read .constraint) (.outcome (.value (.constraint .any)))
  /-- Nothing is restricted. -/
  | unrestricted : Idle (read .restriction) (.outcome (.value (.restriction .unrestricted)))

/-- What holds of a step that is taken at a cursor. -/
structure Lawful (step : Step) (c : Cursor) : Prop where
  /-- The cursor stays within its text. -/
  within : c.Within (step.take c).cursor
  /-- A scan or a reading does not move it back. -/
  onward : step.Scans → c.location ≤ (step.take c).cursor.location
  /-- Where nothing is found it stays where it was. -/
  stays : Idle step (step.take c).reply → (step.take c).cursor = c
  /-- A text that is taken lies behind the characters to skip, and nothing else is passed over. -/
  passes : ∀ s, (step.take c).reply = .taken (some s) →
    c.Passes (c.skipped ++ s) (step.take c).cursor

/-- A step that leaves the cursor alone, and takes no text, is lawful. -/
private theorem Lawful.of_stays (hc : c.InText) (h : (step.take c).cursor = c)
    (ht : ∀ s, (step.take c).reply ≠ .taken (some s)) : step.Lawful c where
  within := by
    rw [h]
    exact (Onward.refl hc).within
  onward _ := Nat.le_of_eq (by rw [h])
  stays _ := h
  passes s hs := absurd hs (ht s)

/-- A step that changes a setting, moves or opens a block is lawful within its text. -/
private theorem Lawful.of_within (h : c.Within (step.take c).cursor) (hscan : ¬ step.Scans)
    (hreply : (step.take c).reply = .done ∨ ∃ l i, (step.take c).reply = .block l i) :
    step.Lawful c where
  within := h
  onward hs := absurd hs hscan
  stays hidle := by
    rcases hreply with hr | ⟨l, i, hr⟩
    · rw [hr] at hidle
      cases hidle
    · rw [hr] at hidle
      cases hidle
  passes s hs := by
    rcases hreply with hr | ⟨l, i, hr⟩
    · exact absurd (hr.symm.trans hs) (by simp)
    · exact absurd (hr.symm.trans hs) (by simp)

/-- A scan is lawful if it passes over what it takes. -/
private theorem lawful_scan {o : Option (List Char × Cursor)} (hc : c.InText)
    (htake : step.take c = .ofScan c o)
    (h : ∀ s d, o = some (s, d) → c.Passes (c.skipped ++ s) d) : step.Lawful c := by
  cases o with
  | none =>
    refine .of_stays hc (by rw [htake]; rfl) fun s hs => ?_
    rw [htake] at hs
    exact absurd hs nofun
  | some found =>
    obtain ⟨s, d⟩ := found
    have hcursor : (step.take c).cursor = d := by rw [htake]; rfl
    have hreply : (step.take c).reply = .taken (some s) := by rw [htake]; rfl
    have hp := h s d rfl
    rw [← hcursor] at hp
    have hon := hp.onward hc
    refine ⟨hon.within, fun _ => hon.location_le, fun hidle => ?_, fun s' hs' => ?_⟩
    · rw [hreply] at hidle
      cases hidle
    · rw [hreply, Reply.taken.injEq, Option.some.injEq] at hs'
      exact hs' ▸ hp

private theorem lawful_literal (l : List Char) (hc : c.Faithful) : (literal l).Lawful c := by
  cases h : c.literal? l with
  | none =>
    have htake : (literal l).take c = { reply := .matched false, cursor := c } := by
      rw [take, h]
      rfl
    refine .of_stays hc.inText (by rw [htake]) fun s hs => ?_
    rw [htake] at hs
    cases hs
  | some d =>
    have htake : (literal l).take c = { reply := .matched true, cursor := d } := by
      rw [take, h]
      rfl
    have hon : c.Onward ((literal l).take c).cursor := by
      rw [htake]
      exact hc.onward_of_literal? h
    refine ⟨hon.within, fun _ => hon.location_le, fun hidle => ?_, fun s hs => ?_⟩
    · rw [htake] at hidle
      cases hidle
    · rw [htake] at hs
      cases hs

private theorem lawful_moveTo (n : Int) (hc : c.InText) : (moveTo n).Lawful c := by
  by_cases h : 0 ≤ n ∧ n ≤ c.text.length
  · have htake : (moveTo n).take c =
        { reply := .done, cursor := { c with location := n.toNat } } := by
      rw [take, Cursor.moveTo, if_pos h]
      rfl
    have hin : n.toNat ≤ c.text.length := by omega
    refine .of_within ?_ id (Or.inl (by rw [htake]))
    rw [htake]
    exact ⟨rfl, hin⟩
  · have htake : (moveTo n).take c = { reply := .fault ⟨n⟩, cursor := c } := by
      rw [take, Cursor.moveTo, if_neg h]
      rfl
    refine .of_stays hc (by rw [htake]) fun s hs => ?_
    rw [htake] at hs
    exact absurd hs (by simp)

/-- Where a reading finds nothing to read the cursor stays. -/
private theorem stays_read {t : Target} {o : Outcome Found}
    (ho : (t.parser.run c).outcome = o) (h : Idle (read t) (.outcome o)) :
    (t.parser.run c).cursor = c := by
  cases h with
  | noPlatform ht hnone =>
    rw [← ho] at hnone
    rcases ht with rfl | rfl
    · exact stays_wrapped Platform.cursor_parser_eq hnone
    · exact stays_wrapped (stays_wrapped Platform.cursor_parser_eq) hnone
  | anyVersion =>
    obtain ⟨d, hd⟩ := Parser.outcome_eq_value_iff.mp ho
    obtain ⟨q, e, hq, hpure⟩ := Parser.reads_bind.mp hd
    obtain ⟨hvalue, rfl⟩ := Parser.reads_pure.mp hpure
    obtain rfl := Found.constraint.inj hvalue
    rw [hd.2]
    exact VersionConstraint.eq_of_parser_reads_any hq
  | unrestricted =>
    obtain ⟨d, hd⟩ := Parser.outcome_eq_value_iff.mp ho
    obtain ⟨r, e, hr, hpure⟩ := Parser.reads_bind.mp hd
    obtain ⟨hvalue, rfl⟩ := Parser.reads_pure.mp hpure
    obtain rfl := Found.restriction.inj hvalue
    rw [hd.2]
    exact PlatformRestriction.eq_of_parser_reads_unrestricted hr

private theorem lawful_read (t : Target) (hc : c.Faithful) : (read t).Lawful c := by
  have htake : (read t).take c = .ofParsed (t.parser.run c) := by rw [take]
  have hon := t.parser_onward hc
  have hcursor : ((read t).take c).cursor = (t.parser.run c).cursor := by rw [htake]; rfl
  rw [← hcursor] at hon
  refine ⟨hon.within, fun _ => hon.location_le, fun hidle => ?_, fun s hs => ?_⟩
  · rw [htake] at hidle
    rw [hcursor]
    exact stays_read rfl hidle
  · rw [htake] at hs
    cases hs

mutual

/-- Every step is lawful where it is taken. -/
theorem lawful : (step : Step) → {c : Cursor} → c.Faithful → step.Lawful c
  | literal l, _, hc => lawful_literal l hc
  | run k, _, hc =>
    lawful_scan hc.inText (by rw [take]) fun _ _ h => (run?_eq_some_iff.mp h).1
  | runUpTo k, _, hc =>
    lawful_scan hc.inText (by rw [take, runUpTo?]) fun _ _ h => (runWhile?_eq_some_iff.mp h).1
  | upTo l, _, hc => lawful_scan hc.inText (by rw [take]) fun _ _ h => hc.passes_of_upTo? h
  | moveTo n, _, hc => lawful_moveTo n hc.inText
  | setCase b, c, hc => by
    refine .of_within ?_ id (Or.inl (by rw [take]))
    rw [take]
    exact ⟨rfl, hc.inText⟩
  | report m, c, hc => by
    refine .of_stays hc.inText (by rw [take]) fun s hs => ?_
    rw [take] at hs
    exact absurd hs nofun
  | read t, _, hc => lawful_read t hc
  | withCase b steps i, c, hc => by
    have h := within_takeAll steps (c := { c with caseSensitive := b })
      ⟨hc.foldsSingly, hc.inText⟩
    refine .of_within ?_ id (Or.inr ⟨_, _, by rw [take]⟩)
    rw [take]
    exact ⟨h.text_eq, h.inText⟩
  | skipping k steps i, c, hc => by
    have h := within_takeAll steps (c := { c with skip := k }) ⟨hc.foldsSingly, hc.inText⟩
    refine .of_within ?_ id (Or.inr ⟨_, _, by rw [take]⟩)
    rw [take]
    exact ⟨h.text_eq, h.inText⟩

/-- A run keeps the cursor within its text. -/
theorem within_takeAll : (steps : List Step) → {c : Cursor} → c.Faithful →
    c.Within (takeAll steps c).cursor
  | [], _, hc => by
    rw [takeAll]
    exact ⟨rfl, hc.inText⟩
  | step :: steps, c, hc => by
    have hfirst := (lawful step hc).within
    have hrest := within_takeAll steps (hfirst.faithful hc)
    rw [takeAll]
    exact hfirst.trans hrest

end

/-- Taking the steps from the cursor `c` on, at some depth of blocks the step `step` is taken at the
cursor `d`. -/
inductive Comes : List Step → Cursor → Step → Cursor → Prop where
  /-- The first step is taken at the start. -/
  | here {step : Step} {steps : List Step} {c : Cursor} : Comes (step :: steps) c step c
  /-- The step is taken after the first one. -/
  | later {first step : Step} {steps : List Step} {c d : Cursor}
      (h : Comes steps (first.take c).cursor step d) : Comes (first :: steps) c step d
  /-- The step is taken in a block that minds case or does not. -/
  | inCase {b i : Bool} {inner steps : List Step} {step : Step} {c d : Cursor}
      (h : Comes inner { c with caseSensitive := b } step d) :
      Comes (withCase b inner i :: steps) c step d
  /-- The step is taken in a block that skips the characters of a set. -/
  | inSkipping {k : CharSet} {i : Bool} {inner steps : List Step} {step : Step} {c d : Cursor}
      (h : Comes inner { c with skip := k } step d) : Comes (skipping k inner i :: steps) c step d

/-- An observation of a run, or of a block in it at some depth. -/
inductive Observed : List Observation → Observation → Prop where
  /-- It is one of the run. -/
  | here {l : List Observation} {o : Observation} (h : o ∈ l) : Observed l o
  /-- It is one of a block. -/
  | inBlock {l inner : List Observation} {o : Observation} {i : Bool} {c : Cursor}
      (h : (Reply.block inner i, c) ∈ l) (ho : Observed inner o) : Observed l o

private theorem Observed.cons {l : List Observation} {o o' : Observation} (h : Observed l o) :
    Observed (o' :: l) o := by
  cases h with
  | here h => exact .here (List.mem_cons_of_mem _ h)
  | inBlock h ho => exact .inBlock (List.mem_cons_of_mem _ h) ho

/-- What comes within a step that comes, comes. -/
private theorem Comes.trans {block : Step} {e : Cursor} (h : Comes steps c block d)
    (h' : ∀ {steps}, Comes (block :: steps) d step e) : Comes steps c step e := by
  induction h with
  | here => exact h'
  | later h ih => exact .later (ih h')
  | inCase h ih => exact .inCase (ih h')
  | inSkipping h ih => exact .inSkipping (ih h')

private theorem exists_comes_of_mem {o : Observation} (h : o ∈ (takeAll steps c).observations) :
    ∃ step d, Comes steps c step d ∧ o = ((step.take d).reply, (step.take d).cursor) := by
  induction steps generalizing c with
  | nil =>
    rw [takeAll] at h
    exact absurd h List.not_mem_nil
  | cons first steps ih =>
    rw [takeAll] at h
    rcases List.mem_cons.mp h with rfl | h
    · exact ⟨first, c, .here, rfl⟩
    · obtain ⟨step, d, hs, ho⟩ := ih h
      exact ⟨step, d, .later hs, ho⟩

private theorem reply_ofScan_ne_block {l : List Observation} {i : Bool}
    (o : Option (List Char × Cursor)) : (StepResult.ofScan c o).reply ≠ .block l i := by
  cases o <;> exact nofun

private theorem reply_ofLiteral_ne_block {l : List Observation} {i : Bool} (o : Option Cursor) :
    (StepResult.ofLiteral c o).reply ≠ .block l i := by
  cases o <;> exact nofun

private theorem reply_ofMove_ne_block {l : List Observation} {i : Bool}
    (o : Except OutOfRange Cursor) : (StepResult.ofMove c o).reply ≠ .block l i := by
  cases o <;> exact nofun

/-- Only a block is answered by what was observed in it. -/
private theorem exists_inner_of_reply {l : List Observation} {i : Bool}
    (h : (step.take c).reply = .block l i) :
    ∃ inner e, l = (takeAll inner e).observations ∧
      ∀ {steps s d}, Comes inner e s d → Comes (step :: steps) c s d := by
  cases step with
  | withCase b inner j =>
    rw [take] at h
    obtain ⟨rfl, -⟩ := Reply.block.inj h
    exact ⟨inner, _, rfl, .inCase⟩
  | skipping k inner j =>
    rw [take] at h
    obtain ⟨rfl, -⟩ := Reply.block.inj h
    exact ⟨inner, _, rfl, .inSkipping⟩
  | literal t =>
    rw [take] at h
    exact absurd h (reply_ofLiteral_ne_block _)
  | run k =>
    rw [take] at h
    exact absurd h (reply_ofScan_ne_block _)
  | runUpTo k =>
    rw [take] at h
    exact absurd h (reply_ofScan_ne_block _)
  | upTo t =>
    rw [take] at h
    exact absurd h (reply_ofScan_ne_block _)
  | moveTo n =>
    rw [take] at h
    exact absurd h (reply_ofMove_ne_block _)
  | setCase b =>
    rw [take] at h
    exact absurd h nofun
  | report m =>
    rw [take] at h
    exact absurd h nofun
  | read t =>
    rw [take] at h
    exact absurd h nofun

/-- The observations of a run, those of its blocks included, are the answers of the steps that are
taken in it. -/
theorem observed_iff {o : Observation} : Observed (takeAll steps c).observations o ↔
    ∃ step d, Comes steps c step d ∧ o = ((step.take d).reply, (step.take d).cursor) := by
  constructor
  · intro h
    generalize hl : (takeAll steps c).observations = l at h
    induction h generalizing steps c with
    | here h => exact exists_comes_of_mem (hl ▸ h)
    | inBlock h ho ih =>
      obtain ⟨block, e, hblock, heq⟩ := exists_comes_of_mem (hl ▸ h)
      obtain ⟨inner, e', hinner, hcomes⟩ := exists_inner_of_reply (Prod.mk.inj heq).1.symm
      obtain ⟨step, d, hstep, rfl⟩ := ih hinner.symm
      exact ⟨step, d, hblock.trans (hcomes hstep), rfl⟩
  · rintro ⟨step, d, h, rfl⟩
    induction h with
    | here =>
      rw [takeAll]
      exact .here List.mem_cons_self
    | later h ih =>
      rw [takeAll]
      exact ih.cons
    | inCase h ih =>
      rw [takeAll, take]
      exact .inBlock List.mem_cons_self ih
    | inSkipping h ih =>
      rw [takeAll, take]
      exact .inBlock List.mem_cons_self ih

/-- Wherever a step is taken in a run, the cursor lies within the text. -/
theorem Comes.within (h : Comes steps c step d) (hc : c.Faithful) : c.Within d := by
  induction h with
  | here => exact ⟨rfl, hc.inText⟩
  | @later first _ _ c _ h ih =>
    have hfirst := (lawful first hc).within
    have hrest := ih (hfirst.faithful hc)
    exact hfirst.trans hrest
  | inCase h ih =>
    have hinner := ih ⟨hc.foldsSingly, hc.inText⟩
    exact ⟨hinner.text_eq, hinner.inText⟩
  | inSkipping h ih =>
    have hinner := ih ⟨hc.foldsSingly, hc.inText⟩
    exact ⟨hinner.text_eq, hinner.inText⟩

/-- A session on a text that folds singly, from a fresh cursor of any setting on, ends within the
text; at any depth of blocks each of its steps is taken within the text, and is lawful there. -/
theorem session_within {t : List Char} (ht : ∀ x ∈ t, FoldsSingly x) (b : Bool) (k : CharSet)
    (steps : List Step) :
    Within { text := t } (takeAll steps { text := t, caseSensitive := b, skip := k }).cursor ∧
      ∀ step d, Comes steps { text := t, caseSensitive := b, skip := k } step d →
        Within { text := t } d ∧ step.Lawful d := by
  have hc : Faithful { text := t, caseSensitive := b, skip := k } := ⟨ht, Nat.zero_le _⟩
  have hend := within_takeAll steps hc
  refine ⟨⟨hend.text_eq, hend.inText⟩, fun step d h => ?_⟩
  have hd := h.within hc
  exact ⟨⟨hd.text_eq, hd.inText⟩, lawful step (hd.faithful hc)⟩

end Session

/-- A block within a block, left by an interruption, and a move past the end. -/
theorem session_within_nested_blocks :
    (∀ x ∈ "a b".toList, FoldsSingly x) ∧
      Within { text := "a b".toList }
        (takeAll [withCase true [skipping ∅ [literal "A".toList, upTo "b".toList] true] false,
          moveTo 9] { text := "a b".toList }).cursor ∧
      Lawful (literal "A".toList) { text := "a b".toList, caseSensitive := true, skip := ∅ } :=
  ⟨forall_mem_of_all (by decide),
    (session_within (forall_mem_of_all (by decide)) false .blanks _).1,
    ((session_within (forall_mem_of_all (by decide)) false .blanks
      [withCase true [skipping ∅ [literal "A".toList, upTo "b".toList] true] false, moveTo 9]).2 _ _
      (.inCase (.inSkipping .here))).2⟩

end Step

end DependencyClause
