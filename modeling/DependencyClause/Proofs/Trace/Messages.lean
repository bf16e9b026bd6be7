import DependencyClause.Proofs.Text.Quoted
import DependencyClause.Proofs.Trace.Layers

/-!
# What messages hold of a text

Messages quote the text that is read, but for the tag of an invalid version, which is repeated as it
stands. Either way they stay printable, whatever is read. The message of a whole clause holds the
text quoted in full, so the text can be told from it.
-/

namespace DependencyClause

open Text

namespace Parser

variable {α β : Type} {c : Cursor} {p : Parser α}

/-- Where the parser rejects the text, it does so in printable words. -/
def RejectsPrintably (p : Parser α) (c : Cursor) : Prop :=
  ∀ f, (p.run c).outcome = .rejected f → Printable f.message

theorem rejectsPrintably_scan (find? : Cursor → Option (α × Cursor)) :
    (scan find?).RejectsPrintably c := by
  intro f hf
  cases h : find? c with
  | none => simp [scan, h] at hf
  | some found => simp [scan, h] at hf

theorem rejectsPrintably_literal (l : List Char) : (literal l).RejectsPrintably c := by
  intro f hf
  cases h : c.literal? l with
  | none => simp [run_literal_of_none h] at hf
  | some d => simp [run_literal_of_some h] at hf

theorem rejectsPrintably_bareVersion [VersionLibrary] :
    VersionConstraint.bareVersion.RejectsPrintably c := by
  intro f hf
  rw [VersionConstraint.run_bareVersion] at hf
  cases h : VersionConstraint.bare? c with
  | none => simp [h] at hf
  | some found => simp [h] at hf

/-- A sequence is rejected in the words of one of its parts. -/
theorem rejectsPrintably_bind {f : α → Parser β} (hp : p.RejectsPrintably c)
    (hf : ∀ a, (p.run c).outcome = .value a → (f a).RejectsPrintably (p.run c).cursor) :
    (p >>= f).RejectsPrintably c := by
  intro e he
  rw [run_bind, Parsed.andThen] at he
  cases ho : (p.run c).outcome with
  | value a =>
    rw [ho] at he
    exact hf a ho e he
  | rejected e' =>
    rw [ho] at he
    obtain rfl := Outcome.rejected.inj he
    exact hp e' ho
  | fault e' =>
    rw [ho] at he
    cases he

theorem rejectsPrintably_noting {event : Cursor → Cause → Event} (hp : p.RejectsPrintably c) :
    (noting event p).RejectsPrintably c := by
  intro f hf
  refine hp f ?_
  simp only [noting] at hf
  split at hf
  · exact hf
  · exact hf

/-- Rejecting in printable words is compositional. -/
theorem compositional_rejectsPrintably [VersionLibrary] :
    Compositional fun _ => RejectsPrintably where
  pure _ _ := nofun
  reject _ hw _ _ hf := Outcome.rejected.inj hf ▸ hw
  literal l _ := rejectsPrintably_literal l
  atEnd _ := nofun
  choose? _ _ := rejectsPrintably_scan _
  run? _ _ := rejectsPrintably_scan _
  upTo? _ _ := rejectsPrintably_scan _
  bareVersion _ := rejectsPrintably_bareVersion
  bind := rejectsPrintably_bind
  withCase _ hp := hp
  skipping _ hp := hp
  noting _ _ hp := rejectsPrintably_noting hp

end Parser

/-- A layer notes a rejection in a printable message if the words of its cause are printable. -/
theorem Layer.printable_event {c : Cursor} {cause : Cause} (h : Printable cause.message)
    (l : Layer) : Printable (l.event c cause).message := by
  have hdecimal := printable_decimal c.location
  have hcolon : Printable ": ".toList := printable_of_ascii rfl
  cases l with
  | platform =>
    have hopen : Printable "No platform at offset ".toList := printable_of_ascii rfl
    exact ((hopen.append hdecimal).append hcolon).append (printable_quote _)
  | platformList =>
    have hopen : Printable "Platform list rejected at offset ".toList := printable_of_ascii rfl
    exact ((hopen.append hdecimal).append hcolon).append h
  | constraint =>
    have hopen : Printable "Version specifier rejected at offset ".toList := printable_of_ascii rfl
    exact ((hopen.append hdecimal).append hcolon).append h
  | clause =>
    have hopen : Printable "Specifier ".toList := printable_of_ascii rfl
    have hrejected : Printable " rejected: ".toList := printable_of_ascii rfl
    exact ((hopen.append (printable_quote c.text)).append hrejected).append h

/-- The text can be told from the message of a whole clause, whatever the cause. -/
theorem Event.eq_of_clauseRejected_message_eq {t u : List Char} {p q : Cause}
    (h : (clauseRejected t p).message = (clauseRejected u q).message) : t = u :=
  eq_of_append_quote_append h

namespace Clause

variable [VersionLibrary]

/-- A clause is rejected in printable words. -/
theorem printable_of_read_eq_rejected {t : List Char} {f : Failure}
    (h : (read t).outcome = .rejected f) : Printable f.message :=
  Parser.rejectsPrintably_noting Parser.compositional_rejectsPrintably.complete f h

/-- Whatever is noted of a text has a printable message. -/
theorem printable_of_mem_trace {t : List Char} {e : Event} (he : e ∈ (read t).trace) :
    Printable e.message := by
  rcases read_eq t with ⟨k, n, hread⟩ | ⟨f, o, n, -, hread⟩
  · rw [hread] at he
    exact absurd he List.not_mem_nil
  · have hwords := printable_of_read_eq_rejected (congrArg Parsed.outcome hread)
    rw [hread] at he
    obtain ⟨l, -, rfl⟩ := List.mem_map.mp he
    exact l.printable_event hwords

/-- The last event of a rejected text is that of the whole clause. -/
theorem getLast?_trace {t : List Char} {f : Failure} (h : (read t).outcome = .rejected f) :
    (read t).trace.getLast? = some (.clauseRejected t f.cause) := by
  rcases read_eq t with ⟨k, n, hread⟩ | ⟨g, o, n, -, hread⟩
  · rw [hread] at h
    exact absurd h nofun
  · rw [hread] at h ⊢
    obtain rfl := Outcome.rejected.inj h
    obtain ⟨inside, hout, -⟩ := o.exists_outward_eq
    rw [hout, List.map_append, List.getLast?_append]
    rfl

/-- Nothing is noted of a text exactly if it is not rejected. -/
theorem trace_ne_nil_iff {t : List Char} :
    (read t).trace ≠ [] ↔ ∃ f, (read t).outcome = .rejected f := by
  constructor
  · intro hne
    rcases read_eq t with ⟨k, n, hread⟩ | ⟨f, o, n, -, hread⟩
    · exact absurd (congrArg Parsed.trace hread) hne
    · exact ⟨f, congrArg Parsed.outcome hread⟩
  · rintro ⟨f, hf⟩ hnil
    have hlast := getLast?_trace hf
    rw [hnil] at hlast
    exact absurd hlast nofun

end Clause

end DependencyClause
