import DependencyClause.Logging
import DependencyClause.Proofs.Trace.Messages

/-!
# When a configuration takes effect

Of all configurations in a run the first one that goes by the name of a level sets that level and
adds the handler. No other step changes either of them, and a configuration by an unknown name is
refused before it changes anything. So the level in force is always the first one that was named.
-/

namespace DependencyClause

/-- Records for debugging pass at two levels. -/
theorem Level.shows_iff {n : Level} : n.Shows ↔ n = .debug ∨ n = .notset := by
  cases n <;> decide

namespace Logging

variable {s : Logging} {name : Option (List Char)} {n : Level} {e : Level.Unknown}

/-- The name that the environment gives after some steps, if it gives `environment` at first. -/
def environmentAfter (environment : Option (List Char)) : List Step → Option (List Char)
  | [] => environment
  | .setEnvironment environment' :: l => environmentAfter environment' l
  | .configure _ :: l => environmentAfter environment l
  | .read _ :: l => environmentAfter environment l

/-- The levels that the configurations among some steps name, in order, if the environment gives the
name `environment` at first. -/
def levelsNamed (environment : Option (List Char)) : List Step → List Level
  | [] => []
  | .setEnvironment environment' :: l => levelsNamed environment' l
  | .configure name :: l =>
    match Level.ofName (effectiveName { environment := environment } name) with
    | .ok n => n :: levelsNamed environment l
    | .error _ => levelsNamed environment l
  | .read _ :: l => levelsNamed environment l

theorem levelsNamed_configure_of_ok (h : Level.ofName (s.effectiveName name) = .ok n)
    (l : List Step) :
    levelsNamed s.environment (.configure name :: l) = n :: levelsNamed s.environment l := by
  change (match Level.ofName (s.effectiveName name) with
    | .ok n => n :: levelsNamed s.environment l
    | .error _ => levelsNamed s.environment l) = _
  rw [h]

theorem levelsNamed_configure_of_error (h : Level.ofName (s.effectiveName name) = .error e)
    (l : List Step) :
    levelsNamed s.environment (.configure name :: l) = levelsNamed s.environment l := by
  change (match Level.ofName (s.effectiveName name) with
    | .ok n => n :: levelsNamed s.environment l
    | .error _ => levelsNamed s.environment l) = _
  rw [h]

section Run

variable [VersionLibrary]

/-- Logging after some steps. -/
def after (s : Logging) (l : List Step) : Logging := l.foldl (fun s a => (s.step a).logging) s

/-- A configuration by the name of a level takes effect if there is no handler yet. -/
theorem step_configure_of_ok (h : Level.ofName (s.effectiveName name) = .ok n) :
    s.step (.configure name) =
      { reply := .done
        logging := if s.handlers = 0 then { s with level := n, handlers := 1 } else s } := by
  have hc : s.configure name =
      .ok (if s.handlers = 0 then { s with level := n, handlers := 1 } else s) := by
    rw [configure, h]
    rfl
  simp only [step, hc]

/-- A configuration by an unknown name is refused and changes nothing. -/
theorem step_configure_of_error (h : Level.ofName (s.effectiveName name) = .error e) :
    s.step (.configure name) = { reply := .unknown e, logging := s } := by
  have hc : s.configure name = .error e := by
    rw [configure, h]
    rfl
  simp only [step, hc]

/-- Lines are written of a text that is rejected, if the level in force and a handler let its events
pass. -/
theorem lines_step_read_ne_nil_iff {t : List Char} : (s.step (.read t)).lines ≠ [] ↔
    s.handlers ≠ 0 ∧ (s.level = .debug ∨ s.level = .notset) ∧
      ∃ f, (Clause.read t).outcome = .rejected f := by
  change s.written (Clause.read t).trace ≠ [] ↔ _
  rw [written, ← Level.shows_iff, ← Clause.trace_ne_nil_iff]
  by_cases hpass : s.level.Shows ∧ s.handlers ≠ 0
  · rw [if_pos hpass, Ne, List.map_eq_nil_iff]
    exact ⟨fun h => ⟨hpass.2, hpass.1, h⟩, fun h => h.2.2⟩
  · rw [if_neg hpass]
    exact ⟨fun h => absurd rfl h, fun h => absurd ⟨h.2.1, h.1⟩ hpass⟩

theorem steps_append (s : Logging) (l m : List Step) :
    s.steps (l ++ m) = s.steps l ++ (s.after l).steps m := by
  induction l generalizing s with
  | nil => rfl
  | cons a l ih => exact congrArg (s.step a :: ·) (ih (s.step a).logging)

/-- Once there is a handler, only the environment changes. -/
theorem after_of_handlers_ne_zero (h : s.handlers ≠ 0) (l : List Step) :
    s.after l = { s with environment := environmentAfter s.environment l } := by
  induction l generalizing s with
  | nil => rfl
  | cons a l ih =>
    change (s.step a).logging.after l = _
    cases a with
    | setEnvironment environment => exact ih h
    | configure name =>
      cases hn : Level.ofName (s.effectiveName name) with
      | ok n =>
        rw [step_configure_of_ok hn, if_neg h]
        exact ih h
      | error e =>
        rw [step_configure_of_error hn]
        exact ih h
    | read t => exact ih h

/-- Where there is no handler at first, the first level that is named is in force from then on. -/
theorem after_of_handlers_eq_zero (h : s.handlers = 0) (l : List Step) :
    s.after l =
      { level := (levelsNamed s.environment l).headD s.level
        handlers := if levelsNamed s.environment l = [] then 0 else 1
        environment := environmentAfter s.environment l } := by
  induction l generalizing s with
  | nil =>
    obtain ⟨level, handlers, environment⟩ := s
    exact congrArg (Logging.mk level · environment) h
  | cons a l ih =>
    change (s.step a).logging.after l = _
    cases a with
    | setEnvironment environment => exact ih h
    | configure name =>
      cases hn : Level.ofName (s.effectiveName name) with
      | ok n =>
        rw [step_configure_of_ok hn, if_pos h, after_of_handlers_ne_zero (by simp),
          levelsNamed_configure_of_ok hn]
        rfl
      | error e =>
        rw [step_configure_of_error hn, levelsNamed_configure_of_error hn]
        exact ih h
    | read t => exact ih h

/-- What a step does to logging, if the configurations before it have named the given levels. -/
structure SettledBy (named : List Level) (s : Logging) (a : Step) : Prop where
  /-- There is one handler at most, before the step and after it. -/
  handlers : (s.handlers = 0 ∨ s.handlers = 1) ∧
    ((s.step a).logging.handlers = 0 ∨ (s.step a).logging.handlers = 1)
  /-- The first configuration that goes by the name of a level sets this level and adds the
  handler. -/
  first : ∀ name n, a = .configure name → Level.ofName (s.effectiveName name) = .ok n →
    named = [] → s.step a = { reply := .done, logging := { s with level := n, handlers := 1 } }
  /-- A later one is done too, and changes nothing. -/
  later : ∀ name n, a = .configure name → Level.ofName (s.effectiveName name) = .ok n →
    named ≠ [] → s.step a = { reply := .done, logging := s }
  /-- A configuration by an unknown name is refused and changes nothing, be it early or late. -/
  unknown : ∀ name e, a = .configure name → Level.ofName (s.effectiveName name) = .error e →
    s.step a = { reply := .unknown e, logging := s }
  /-- A step that is no configuration leaves the level and the handlers as they are. -/
  other : (∀ name, a ≠ .configure name) →
    (s.step a).logging.level = s.level ∧ (s.step a).logging.handlers = s.handlers
  /-- Something is written of a text exactly if there is a handler, the level is one of the two that
  let records for debugging pass, and the text is rejected. -/
  output : ∀ t, a = .read t → ((s.step a).lines ≠ [] ↔
    s.handlers ≠ 0 ∧ (s.level = .debug ∨ s.level = .notset) ∧
      ∃ f, (s.step a).reply = .outcome (.rejected f))

/-- What a step does to logging turns on whether there is a handler. -/
theorem settledBy_of_handlers {named : List Level} {s : Logging}
    (h : s.handlers = if named = [] then 0 else 1) (a : Step) : SettledBy named s a where
  handlers := by
    have hs : s.handlers = 0 ∨ s.handlers = 1 := by
      rw [h]
      split
      · exact .inl rfl
      · exact .inr rfl
    refine ⟨hs, ?_⟩
    cases a with
    | setEnvironment environment => exact hs
    | configure name =>
      cases hn : Level.ofName (s.effectiveName name) with
      | ok n =>
        rw [step_configure_of_ok hn]
        split
        · exact .inr rfl
        · exact hs
      | error e =>
        rw [step_configure_of_error hn]
        exact hs
    | read t => exact hs
  first name n ha hn hnamed := by
    rw [ha, step_configure_of_ok hn, if_pos (h.trans (if_pos hnamed))]
  later name n ha hn hnamed := by
    have hne : s.handlers ≠ 0 := by
      rw [h, if_neg hnamed]
      exact Nat.one_ne_zero
    rw [ha, step_configure_of_ok hn, if_neg hne]
  unknown name e ha hn := by rw [ha, step_configure_of_error hn]
  other hother := by
    cases a with
    | setEnvironment environment => exact ⟨rfl, rfl⟩
    | configure name => exact absurd rfl (hother name)
    | read t => exact ⟨rfl, rfl⟩
  output t ha := by
    have hreply : ∀ f, (s.step a).reply = .outcome (.rejected f) ↔
        (Clause.read t).outcome = .rejected f := by
      intro f
      rw [ha]
      exact ⟨Reply.outcome.inj, congrArg Reply.outcome⟩
    simp only [hreply]
    rw [ha]
    exact lines_step_read_ne_nil_iff

/-- In a run that starts without a handler, the level in force is the first one that the
configurations so far have named, and there is a handler if they have named one. Every step of the
run does to logging what it may do after the steps before it. -/
theorem configuration_settles_once (environment : Option (List Char)) (before later : List Step)
    (a : Step) :
    steps { environment := environment } (before ++ a :: later) =
      steps { environment := environment } before ++
        (after { environment := environment } before).step a ::
          steps (after { environment := environment } (before ++ [a])) later ∧
    after { environment := environment } before =
      { level := (levelsNamed environment before).headD .warning
        handlers := if levelsNamed environment before = [] then 0 else 1
        environment := environmentAfter environment before } ∧
    SettledBy (levelsNamed environment before) (after { environment := environment } before) a := by
  have hstate := after_of_handlers_eq_zero (s := { environment := environment }) rfl before
  have hnext : after { environment := environment } (before ++ [a]) =
      ((after { environment := environment } before).step a).logging :=
    List.foldl_append
  refine ⟨?_, hstate, settledBy_of_handlers ?_ a⟩
  · rw [steps_append, hnext]
    rfl
  · rw [hstate]

end Run

/-- The configuration by the name `chatty` that the environment gives at first is refused, the next
one sets the level, and the last one is done but leaves it in force. -/
theorem configuration_settles_once_debug :
    let before : List Step := [.configure none, .setEnvironment (some "debug".toList),
      .configure (some [])]
    let s : Logging := { environment := some "chatty".toList }
    levelsNamed s.environment before = [.debug] ∧
      s.after before =
        { level := .debug, handlers := 1, environment := some "debug".toList } ∧
      (s.after before).step (.configure (some "error".toList)) =
        { reply := .done, logging := s.after before } := by
  intro before s
  have hnamed : levelsNamed s.environment before = [.debug] := by decide +kernel
  obtain ⟨-, hafter, hsettled⟩ := configuration_settles_once (some "chatty".toList) before []
    (.configure (some "error".toList))
  refine ⟨hnamed, ?_, hsettled.later (some "error".toList) .error rfl rfl ?_⟩
  · exact hafter.trans (by decide +kernel)
  · exact fun h => List.cons_ne_nil _ _ (hnamed.symm.trans h)

end Logging

end DependencyClause
