import DependencyClause.Proofs.Roundtrip.Pins

/-!
# Which pins can be declared

A pin has a declaration exactly if some text writes it. So among the texts that fold singly there is
none that a pin without a declaration is read from, and whatever is read from such a text can be
written and read again, even where it is then written in another way.
-/

namespace DependencyClause

open Text Cursor

namespace Pin

variable {p : Pin} {s t : List Char}

/-- A declaration writes the pin. -/
theorem written_of_declaration (h : p.declaration = .ok s) : p.Written (fun u => '"' ∉ u) s := by
  obtain ⟨hne, ⟨hbare, rfl⟩ | ⟨-, hmark, rfl⟩⟩ := declaration_eq_ok_iff.mp h
  · exact .bare hne hbare
  · exact .quoted hne hmark

/-- A pin that is written somehow has a declaration, be it another text. -/
theorem Written.exists_declaration (h : p.Written (fun u => '"' ∉ u) t) :
    ∃ s, p.declaration = .ok s := by
  cases h with
  | bare hne hbare => exact ⟨_, declaration_eq_ok_iff.mpr ⟨hne, Or.inl ⟨hbare, rfl⟩⟩⟩
  | quoted hne hmark =>
    cases hq : needsQuotes p.commitish with
    | false => exact ⟨_, declaration_eq_ok_iff.mpr ⟨hne, Or.inl ⟨hq, rfl⟩⟩⟩
    | true => exact ⟨_, declaration_eq_ok_iff.mpr ⟨hne, Or.inr ⟨hq, hmark, rfl⟩⟩⟩

/-- The declaration of a pin that folds singly does so too. -/
theorem foldsSingly_of_declaration (h : p.declaration = .ok s)
    (hp : ∀ x ∈ p.commitish, FoldsSingly x) : ∀ x ∈ s, FoldsSingly x := by
  cases written_of_declaration h with
  | bare => exact hp
  | quoted =>
    intro x hx
    simp only [List.mem_append, List.mem_cons, List.not_mem_nil, or_false] at hx
    rcases hx with (rfl | hx) | rfl
    · exact isMark_quote.foldsSingly
    · exact hp x hx
    · exact isMark_quote.foldsSingly

/-- What is read as a pin from a text that folds singly has a declaration and folds singly. -/
theorem exists_declaration_of_reads {d : Cursor} (ht : ∀ x ∈ t, FoldsSingly x)
    (h : parser.Reads { text := t } p d) :
    (∃ s, p.declaration = .ok s) ∧ (∀ x ∈ p.commitish, FoldsSingly x) ∧ d.Plain := by
  obtain ⟨w, u, -, hu, hpass⟩ :=
    exists_written_of_parser_reads (plain_fresh t) (inText_fresh t) (aligned_fresh t) h
  have hsubset : u ⊆ t := by
    intro x hx
    have hrem : t = w ++ u ++ d.remaining := hpass.remaining_eq
    rw [hrem]
    simp [hx]
  have hfold : ∀ x ∈ p.commitish, FoldsSingly x := fun x hx => ht x (hsubset (hu.subset hx))
  refine ⟨?_, hfold, (plain_fresh t).of_passes hpass⟩
  cases hu with
  | bare hne hbare => exact Written.exists_declaration (.bare hne hbare)
  | quoted hne hq =>
    exact Written.exists_declaration (.quoted hne ((quotable_iff_not_mem hfold).mp hq))

end Pin

/-- What is read as a resolved pin from a text that folds singly can be written. -/
theorem ResolvedPin.exists_text_of_reads {r : ResolvedPin} {t : List Char} {d : Cursor}
    (ht : ∀ x ∈ t, FoldsSingly x) (h : parser.Reads { text := t } r d) :
    (∃ s, r.text = .ok s) ∧ (∀ x ∈ r.pin.commitish, FoldsSingly x) ∧ r.platforms ≠ .among ∅ := by
  obtain ⟨e, hpin, hplatforms⟩ := parser_reads_iff.mp h
  obtain ⟨⟨s, hs⟩, hfold, he⟩ := Pin.exists_declaration_of_reads ht hpin
  obtain ⟨-, u, -, hu, -⟩ := PlatformRestriction.exists_written_of_parser_reads he hplatforms
  refine ⟨?_, hfold, PlatformRestriction.ne_among_empty_of_written hu⟩
  rw [text]
  cases r.platforms with
  | unrestricted => exact ⟨s, hs⟩
  | among q => exact ⟨_, by rw [hs]; rfl⟩

/-- A pin that folds singly has no declaration exactly if no text that folds singly is read as the
pin. So every resolved pin that is read from a text that folds singly can be written, and is read
back from what is written, up to its end. -/
theorem Pin.declaration_fails_iff_never_read :
    (∀ p : Pin, (∀ x ∈ p.commitish, FoldsSingly x) →
      ((∃ e, p.declaration = .error e) ↔
        ¬ ∃ t, (∀ x ∈ t, FoldsSingly x) ∧ (parser.run { text := t }).outcome = .value p)) ∧
    ∀ (t : List Char) (r : ResolvedPin), (∀ x ∈ t, FoldsSingly x) →
      (ResolvedPin.parser.run { text := t }).outcome = .value r →
      ∃ s, r.text = .ok s ∧ (ResolvedPin.parser.run { text := s }).outcome = .value r ∧
        (ResolvedPin.parser.run { text := s }).cursor.isAtEnd = true := by
  refine ⟨fun p hp => ⟨?_, fun hnever => ?_⟩, fun t r ht hread => ?_⟩
  · rintro ⟨e, he⟩ ⟨t, ht, hread⟩
    obtain ⟨d, hd⟩ := Parser.outcome_eq_value_iff.mp hread
    obtain ⟨⟨s, hs⟩, -⟩ := exists_declaration_of_reads ht hd
    exact absurd (he.symm.trans hs) nofun
  · cases hd : p.declaration with
    | error e => exact ⟨e, rfl⟩
    | ok s =>
      obtain ⟨d, hread, -⟩ := exists_reads_declaration (u := []) hd (fun _ => hp) nofun
      rw [List.append_nil] at hread
      exact absurd ⟨s, foldsSingly_of_declaration hd hp, hread.1⟩ hnever
  · obtain ⟨d, hd⟩ := Parser.outcome_eq_value_iff.mp hread
    obtain ⟨⟨s, hs⟩, hfold, hr⟩ := ResolvedPin.exists_text_of_reads ht hd
    obtain ⟨d', ⟨hagain, rfl⟩, hend⟩ := ResolvedPin.exists_reads_text hr hs fun _ => hfold
    exact ⟨s, hs, hagain, hend⟩

/-- No text that folds singly is read as a pin with a blank behind a mark; and a tag between marks
that it does not need is written without them. -/
theorem Pin.declaration_fails_iff_never_read_mark_and_blank :
    (¬ ∃ t, (∀ x ∈ t, FoldsSingly x) ∧
      (parser.run { text := t }).outcome = .value ⟨"\" v1".toList⟩) ∧
    (ResolvedPin.parser.run { text := " \"v1\"@Platforms[iOS]".toList }).outcome =
        .value { pin := ⟨"v1".toList⟩, platforms := .among (.ofList [.ios]) } ∧
    ∃ s, ResolvedPin.text { pin := ⟨"v1".toList⟩, platforms := .among (.ofList [.ios]) } = .ok s ∧
      (ResolvedPin.parser.run { text := s }).outcome =
        .value { pin := ⟨"v1".toList⟩, platforms := .among (.ofList [.ios]) } := by
  obtain ⟨hiff, hagain⟩ := declaration_fails_iff_never_read
  have hread : (ResolvedPin.parser.run { text := " \"v1\"@Platforms[iOS]".toList }).outcome =
      .value { pin := ⟨"v1".toList⟩, platforms := .among (.ofList [.ios]) } := by decide +kernel
  obtain ⟨s, hs, hread', -⟩ := hagain _ _ (forall_mem_of_all (by decide)) hread
  exact ⟨(hiff ⟨"\" v1".toList⟩ (forall_mem_of_all (by decide))).mp ⟨_, rfl⟩, hread, s, hs, hread'⟩

end DependencyClause
