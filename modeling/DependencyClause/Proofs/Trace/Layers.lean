import DependencyClause.Proofs.Parser.Faults
import DependencyClause.Proofs.Parser.Settings
import DependencyClause.Version.Reading

/-!
# Which layers note a rejection

A rejection arises in one layer of reading and passes through every layer around it. Each of them
notes it once, where the cursor has stopped, from the inside outward. Nothing else is noted: neither
what was tried in vain on the way nor what was read.
-/

namespace DependencyClause

open Text

/-- The layers that a rejection passes through from one layer outward. -/
def Layer.outward : Layer → List Layer
  | platform => [platform, platformList, clause]
  | platformList => [platformList, clause]
  | constraint => [constraint, clause]
  | clause => [clause]

/-- From a layer that is a part of another one a rejection passes on to that one. -/
theorem Layer.outward_of_around {l m : Layer} (h : m.around = some l) :
    m.outward = m :: l.outward := by
  cases m <;> cases h <;> rfl

/-- Every rejection ends with the layer of a whole clause, which it passes through once. -/
theorem Layer.exists_outward_eq (l : Layer) :
    ∃ inside, l.outward = inside ++ [.clause] ∧ .clause ∉ inside := by
  cases l with
  | platform => exact ⟨[platform, platformList], rfl, by decide⟩
  | platformList => exact ⟨[platformList], rfl, by decide⟩
  | constraint => exact ⟨[constraint], rfl, by decide⟩
  | clause => exact ⟨[], rfl, by decide⟩

/-- What is read is not noted. What is rejected arose in some layer, and the layers from that one up
to the given one, which is left out, have noted it. -/
def Parsed.NotedWithin {α : Type} (l : Layer) (r : Parsed α) : Prop :=
  match r.outcome with
  | .value _ => r.trace = []
  | .rejected f => ∃ o passed, f.cause.origin = some o ∧ o.outward = passed ++ l.outward ∧
      r.trace = passed.map (Layer.event r.cursor f.cause)
  | .fault _ => True

/-- What is noted within a layer may be judged with another cursor of which the same is noted. -/
theorem Parsed.NotedWithin.setCursor {α : Type} {l : Layer} {r : Parsed α} {d : Cursor}
    (h : r.NotedWithin l) (hd : ∀ cause, Layer.event d cause = Layer.event r.cursor cause) :
    { r with cursor := d }.NotedWithin l := by
  obtain ⟨outcome, cursor, trace⟩ := r
  cases outcome with
  | value a => exact h
  | rejected f =>
    obtain ⟨o, passed, horigin, hout, htrace⟩ := h
    exact ⟨o, passed, horigin, hout, htrace.trans (congrArg passed.map (hd f.cause).symm)⟩
  | fault e => exact trivial

namespace Parser

variable {α β : Type} {l m : Layer} {c : Cursor} {p : Parser α}

/-- The parser notes what it is to note as a part of a layer. -/
def NotesWithin (l : Layer) (p : Parser α) (c : Cursor) : Prop := (p.run c).NotedWithin l

theorem notesWithin_scan (find? : Cursor → Option (α × Cursor)) : (scan find?).NotesWithin l c := by
  cases h : find? c with
  | none => simp [NotesWithin, Parsed.NotedWithin, scan, h]
  | some found => simp [NotesWithin, Parsed.NotedWithin, scan, h]

/-- A literal that is tried is not noted, whether or not it lies ahead. -/
theorem notesWithin_literal (t : List Char) : (literal t).NotesWithin l c := by
  cases h : c.literal? t with
  | none => simp [NotesWithin, Parsed.NotedWithin, run_literal_of_none h]
  | some d => simp [NotesWithin, Parsed.NotedWithin, run_literal_of_some h]

/-- A bare version is never rejected, so there is nothing to note. -/
theorem notesWithin_bareVersion [VersionLibrary] :
    VersionConstraint.bareVersion.NotesWithin l c := by
  rw [NotesWithin, VersionConstraint.run_bareVersion]
  cases VersionConstraint.bare? c with
  | none => rfl
  | some found => rfl

/-- A rejection by the second part follows on nothing that was noted. -/
theorem notesWithin_bind {f : α → Parser β} (hp : p.NotesWithin l c)
    (hf : ∀ a, (p.run c).outcome = .value a → (f a).NotesWithin l (p.run c).cursor) :
    (p >>= f).NotesWithin l c := by
  rw [NotesWithin, Parsed.NotedWithin] at hp
  rw [NotesWithin, run_bind, Parsed.andThen]
  cases ho : (p.run c).outcome with
  | value a =>
    rw [ho] at hp
    have hnext := hf a ho
    simp only [hp, List.nil_append]
    exact hnext
  | rejected e =>
    rw [ho] at hp
    exact hp
  | fault e => exact trivial

/-- A layer notes what was rejected within it, behind what the layers inside it have noted. -/
theorem notesWithin_noting (hm : m.around = some l) (hp : p.NotesWithin m c) :
    (noting (fun d cause => m.event d cause) p).NotesWithin l c := by
  rw [NotesWithin, Parsed.NotedWithin] at hp
  cases ho : (p.run c).outcome with
  | value a =>
    rw [ho] at hp
    simpa only [NotesWithin, Parsed.NotedWithin, noting, ho] using hp
  | rejected e =>
    rw [ho] at hp
    obtain ⟨o, passed, horigin, hout, htrace⟩ := hp
    simp only [NotesWithin, Parsed.NotedWithin, noting, ho]
    refine ⟨o, passed ++ [m], horigin, ?_, ?_⟩
    · rw [hout, Layer.outward_of_around hm, List.append_assoc, List.singleton_append]
    · rw [htrace, List.map_append, List.map_singleton]
  | fault e => simp only [NotesWithin, Parsed.NotedWithin, noting, ho]

/-- Noting what is to be noted as a part of the given layer is compositional. -/
theorem compositional_notesWithin [VersionLibrary] :
    Compositional fun o {_} p c => ∀ l ∈ o, NotesWithin l p c where
  pure _ _ _ _ := rfl
  reject ho _ _ l hl := ⟨l, [], ho l hl, rfl, rfl⟩
  literal t _ _ _ := notesWithin_literal t
  atEnd _ _ _ := rfl
  choose? _ _ _ _ := notesWithin_scan _
  run? _ _ _ _ := notesWithin_scan _
  upTo? _ _ _ _ := notesWithin_scan _
  bareVersion _ _ _ := notesWithin_bareVersion
  bind hp hf l hl := notesWithin_bind (hp l hl) fun a ha => hf a ha l hl
  withCase _ hp l hl := (hp l hl).setCursor fun _ => Layer.event_setCase _
  skipping _ hp l hl := (hp l hl).setCursor fun _ => Layer.event_setSkip _
  noting _ ho hp l hl := notesWithin_noting (ho l hl) (hp _ rfl)

end Parser

namespace Clause

open DependencyClause.Parser

section Reading

variable [VersionLibrary]

/-- What is read and where the cursor has stopped tell what is noted. -/
theorem read_eq (t : List Char) :
    (∃ k n, read t = { outcome := .value k, cursor := { text := t, location := n }, trace := [] }) ∨
    ∃ f o n, f.cause.origin = some o ∧
      read t =
        { outcome := .rejected f
          cursor := { text := t, location := n }
          trace := o.outward.map (Layer.event { text := t, location := n } f.cause) } := by
  have hnotes : complete.NotesWithin .clause { text := t } :=
    compositional_notesWithin.complete .clause rfl
  have hmoves : complete.OnlyMoves { text := t } := compositional_onlyMoves.complete
  have hfault := read_ne_fault t
  rw [NotesWithin] at hnotes
  rw [OnlyMoves, Cursor.Moves] at hmoves
  simp only [read, noting] at hfault ⊢
  generalize complete.run { text := t } = r at hnotes hmoves hfault ⊢
  obtain ⟨outcome, cursor, trace⟩ := r
  cases outcome with
  | value k =>
    change trace = [] at hnotes
    exact .inl ⟨k, cursor.location, by rw [hnotes, ← hmoves]⟩
  | rejected f =>
    obtain ⟨o, passed, horigin, hout, htrace⟩ := hnotes
    have htext : cursor.text = t := congrArg Cursor.text hmoves
    have hlast : Event.clauseRejected t f.cause = Layer.clause.event cursor f.cause := by
      rw [Layer.event, htext]
    refine .inr ⟨f, o, cursor.location, horigin, ?_⟩
    change trace = passed.map (Layer.event cursor f.cause) at htrace
    rw [← hmoves, hout, Layer.outward, List.map_append, List.map_singleton, ← hlast, ← htrace]
  | fault e => exact absurd rfl (hfault e)

/-- Of a text that is read nothing is noted. Of any other text the rejection is noted by the layer
in which it arose and by those around it, once by each from the inside outward, so that the last
event is that of the whole clause and the only one of its layer. The events tell the location where
the cursor has stopped, as far as they tell one, and all but that of a single platform end with the
message of the rejection. -/
theorem read_trace (t : List Char) :
    (∃ k n, read t = { outcome := .value k, cursor := { text := t, location := n }, trace := [] }) ∨
    ∃ f o n, f.cause.origin = some o ∧
      read t =
        { outcome := .rejected f
          cursor := { text := t, location := n }
          trace := o.outward.map (Layer.event { text := t, location := n } f.cause) } ∧
      (read t).trace.map Event.layer = o.outward ∧
      (∃ inside, (read t).trace = inside ++ [.clauseRejected t f.cause] ∧
        ∀ e ∈ inside, e.layer ≠ .clause) ∧
      (∀ e ∈ (read t).trace, e.layer ≠ .platform → f.message <:+ e.message) ∧
      ∀ e ∈ (read t).trace, e.layer ≠ .clause →
        e.layer.opening.toList ++ " at offset ".toList ++ decimal n ++ ": ".toList <+:
          e.message := by
  rcases read_eq t with hvalue | ⟨f, o, n, horigin, hread⟩
  · exact .inl hvalue
  · refine .inr ⟨f, o, n, horigin, hread, ?_, ?_, ?_, ?_⟩
    · simp [hread, Function.comp_def]
    · obtain ⟨inside, hout, hinside⟩ := o.exists_outward_eq
      refine ⟨inside.map (Layer.event { text := t, location := n } f.cause), ?_, ?_⟩
      · rw [hread, hout, List.map_append]
        rfl
      · intro e he hclause
        obtain ⟨l, hl, rfl⟩ := List.mem_map.mp he
        rw [Layer.layer_event] at hclause
        exact hinside (hclause ▸ hl)
    · intro e he hplatform
      rw [hread] at he
      obtain ⟨l, -, rfl⟩ := List.mem_map.mp he
      rw [Layer.layer_event] at hplatform
      exact Layer.message_suffix_event hplatform
    · intro e he hclause
      rw [hread] at he
      obtain ⟨l, -, rfl⟩ := List.mem_map.mp he
      rw [Layer.layer_event] at hclause ⊢
      exact Layer.offset_prefix_event (c := { text := t, location := n }) hclause

end Reading

example : ((read "@platforms [ios, beos]".toList).trace.map fun e => e.layer.component) =
    ["platform", "platform_specifier", "specifier"] := by decide +kernel

end Clause

end DependencyClause
