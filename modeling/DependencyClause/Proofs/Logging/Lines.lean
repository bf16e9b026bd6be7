import DependencyClause.Logging
import DependencyClause.Proofs.Trace.Messages

/-!
# Lines of records

A handler ends every record with a line feed. Since messages are printable a record is one line, so
the output can be cut into its records again, and no text that is read can add a line or break one.
-/

namespace DependencyClause

open Text

namespace Logging

/-- What a handler writes: every line and the line feed that ends it. -/
def output (lines : List (List Char)) : List Char := lines.flatMap (· ++ ['\n'])

/-- Lines without line feeds are found again in the output, with nothing behind the last one. -/
theorem splitOn_output {lines : List (List Char)} (h : ∀ l ∈ lines, '\n' ∉ l) :
    (output lines).splitOn '\n' = lines ++ [[]] := by
  have hjoin : output lines = List.intercalate ['\n'] (lines ++ [[]]) := by
    clear h
    induction lines with
    | nil => rfl
    | cons l lines ih =>
      rw [output, List.flatMap_cons, ← output, ih]
      obtain ⟨m, ms, hm⟩ := List.exists_cons_of_ne_nil (List.append_ne_nil_of_right_ne_nil lines
        (List.cons_ne_nil ([] : List Char) []))
      rw [List.cons_append, hm, List.intercalate_cons_cons]
  rw [hjoin]
  refine List.splitOn_intercalate '\n' (fun l hl => ?_) (by simp)
  rcases List.mem_append.mp hl with hl | hl
  · exact h l hl
  · obtain rfl := List.mem_singleton.mp hl
    exact List.not_mem_nil

/-- An event with a printable message is written on a single line. -/
theorem linefeed_not_mem_line {e : Event} (h : Printable e.message) : '\n' ∉ line e := by
  have hlabel : Printable "[DEBUG] ".toList := printable_of_ascii rfl
  exact (hlabel.append h).not_mem isPrintable_linefeed

/-- Whatever text is read, every message is a single line and printable throughout; what a handler
writes of the events is one line for each of them, found again by cutting the output at its line
feeds; and two rejected texts that differ are told apart by the messages of their last events. -/
theorem records_unforgeable [VersionLibrary] :
    (∀ t, ∀ e ∈ (Clause.read t).trace, Printable e.message ∧ '\n' ∉ e.message ∧ '\r' ∉ e.message) ∧
    (∀ (s : Logging) (t : List Char), s.level.Shows → s.handlers ≠ 0 →
      (s.step (.read t)).lines = (Clause.read t).trace.map line ∧
        (output (s.step (.read t)).lines).splitOn '\n' =
          (Clause.read t).trace.map line ++ [[]]) ∧
    ∀ t u f g, (Clause.read t).outcome = .rejected f → (Clause.read u).outcome = .rejected g →
      (Clause.read t).trace.getLast? = some (.clauseRejected t f.cause) ∧
      (Clause.read u).trace.getLast? = some (.clauseRejected u g.cause) ∧
      (t ≠ u →
        (Event.clauseRejected t f.cause).message ≠ (Event.clauseRejected u g.cause).message) := by
  refine ⟨fun t e he => ?_, fun s t hlevel hhandler => ?_, fun t u f g hf hg => ?_⟩
  · have hprint := Clause.printable_of_mem_trace he
    exact ⟨hprint, hprint.not_mem isPrintable_linefeed, hprint.not_mem (by decide)⟩
  · have hlines : (s.step (.read t)).lines = (Clause.read t).trace.map line :=
      if_pos ⟨hlevel, hhandler⟩
    refine ⟨hlines, ?_⟩
    rw [hlines]
    refine splitOn_output fun l hl => ?_
    obtain ⟨e, he, rfl⟩ := List.mem_map.mp hl
    exact linefeed_not_mem_line (Clause.printable_of_mem_trace he)
  · exact ⟨Clause.getLast?_trace hf, Clause.getLast?_trace hg,
      fun hne he => hne (Event.eq_of_clauseRejected_message_eq he)⟩

/-- A text with a line feed in an open quotation, and the text that has the escape of it there. The
output for the first has no further line, and the last messages differ. -/
theorem records_unforgeable_linefeed :
    let s : Logging := { level := .debug, handlers := 1 }
    let t := "\"a\nb".toList
    let u := "\"a\\nb".toList
    (output (s.step (.read t)).lines).splitOn '\n' = (Clause.read t).trace.map line ++ [[]] ∧
      ∃ f g, (Clause.read t).outcome = .rejected f ∧ (Clause.read u).outcome = .rejected g ∧
        (Event.clauseRejected t f.cause).message ≠ (Event.clauseRejected u g.cause).message := by
  intro s t u
  obtain ⟨-, hlines, htold⟩ := records_unforgeable
  have hf : (Clause.read t).outcome =
      .rejected { cause := .quoteUnterminated, line := some ['b'] } := by decide +kernel
  have hg : (Clause.read u).outcome =
      .rejected { cause := .quoteUnterminated, line := some u } := by decide +kernel
  refine ⟨(hlines s t (by decide) (by decide)).2, _, _, hf, hg, ?_⟩
  exact (htold t u _ _ hf hg).2.2 (by decide)

end Logging

end DependencyClause
