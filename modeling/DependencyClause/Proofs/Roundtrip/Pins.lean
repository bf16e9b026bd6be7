import DependencyClause.Proofs.Grammar.Pins
import DependencyClause.Proofs.Roundtrip.Platforms

/-!
# Resolved pins and their written forms

A resolved pin that is written bare is always read back. One that is written between quotation marks
is read back exactly if its commit folds singly: the mark that ends the quotation is sought in the
folded text, where a longer folding shifts it.
-/

namespace DependencyClause

open Text Cursor

/-- What has a declaration is not empty, and is declared bare or, if it has to be, between quotation
marks. -/
theorem Pin.declaration_eq_ok_iff {p : Pin} {s : List Char} : p.declaration = .ok s ↔
    p.commitish ≠ [] ∧ (needsQuotes p.commitish = false ∧ s = p.commitish ∨
      needsQuotes p.commitish = true ∧ '"' ∉ p.commitish ∧ s = '"' :: p.commitish ++ ['"']) := by
  rw [declaration]
  by_cases hnil : p.commitish = []
  · simp [hnil]
  · rw [if_neg hnil]
    cases hq : needsQuotes p.commitish with
    | false => simp [hnil, eq_comm]
    | true =>
      by_cases hm : '"' ∈ p.commitish
      · simp [hnil, hm]
      · simp [hnil, hm, eq_comm]

/-- A pin that folds singly, or stands bare, is read back from its declaration. -/
theorem Pin.exists_reads_declaration {p : Pin} {s u : List Char} (h : p.declaration = .ok s)
    (hfold : needsQuotes p.commitish = true → ∀ x ∈ p.commitish, FoldsSingly x)
    (hu : ∀ x ∈ u.head?, x ∈ CharSet.blanks) :
    ∃ d, parser.Reads { text := s ++ u } p d ∧ d.Plain ∧ d.InText ∧ d.remaining = u := by
  have hc := plain_fresh (s ++ u)
  have hin := inText_fresh (s ++ u)
  obtain ⟨d, hd, hrem⟩ := exists_passes (c := { text := s ++ u }) (s := s) (t := u) rfl
  refine ⟨d, ?_, hc.of_passes hd, hd.inText hin, hrem⟩
  obtain ⟨hne, ⟨hq, rfl⟩ | ⟨hq, hm, rfl⟩⟩ := declaration_eq_ok_iff.mp h
  · exact parser_reads_bare hc hne hq hd (hrem.symm ▸ hu)
  · have hquotable := (quotable_iff_foldsSingly hm).mpr (hfold hq)
    exact parser_reads_quoted hc hin (aligned_fresh _) hne hquotable (w := []) nofun hd

namespace ResolvedPin

variable {r : ResolvedPin} {t : List Char}

/-- A resolved pin is written as its declaration and, behind a blank, its platforms. -/
private theorem exists_text_eq (h : r.text = .ok t) : ∃ s v, r.pin.declaration = .ok s ∧
    IsBlankRun v ∧ (∀ x ∈ (v ++ r.platforms.text).head?, x ∈ CharSet.blanks) ∧
      t = s ++ (v ++ r.platforms.text) := by
  rw [text] at h
  cases hr : r.platforms with
  | unrestricted =>
    rw [hr] at h
    exact ⟨t, [], h, nofun, nofun, (List.append_nil t).symm⟩
  | among s =>
    rw [hr] at h
    cases hd : r.pin.declaration with
    | error e =>
      rw [hd] at h
      exact absurd h nofun
    | ok s' =>
      rw [hd] at h
      refine ⟨s', [' '], rfl, isBlankRun_space, fun x hx => ?_, (Except.ok.inj h).symm⟩
      rw [← Option.some.inj hx]
      decide

/-- A resolved pin whose commit folds singly, or stands bare, is read back from its written form. -/
theorem exists_reads_text (hr : r.platforms ≠ .among ∅) (ht : r.text = .ok t)
    (hfold : Pin.needsQuotes r.pin.commitish = true → ∀ x ∈ r.pin.commitish, FoldsSingly x) :
    ∃ d, parser.Reads { text := t } r d ∧ d.isAtEnd = true := by
  obtain ⟨s, v, hs, hv, hhead, rfl⟩ := exists_text_eq ht
  obtain ⟨e, hp, hec, hein, hrem⟩ := Pin.exists_reads_declaration hs hfold hhead
  rw [← List.append_nil (v ++ r.platforms.text)] at hrem
  obtain ⟨d, hd, hdc, hdin, hend⟩ := PlatformRestriction.exists_parser_reads
    (PlatformRestriction.written_text hr) (PlatformRestriction.foldsSingly_text hr) hec hein hv
    (w := []) nofun hrem
  exact ⟨d, parser_reads_iff.mpr ⟨e, hp, hd⟩, (hdc.isAtEnd_iff hdin).mpr hend⟩

/-- A resolved pin that is read back from its written form folds singly, if it is quoted there. -/
theorem foldsSingly_of_reads_text {d : Cursor} (ht : r.text = .ok t)
    (h : parser.Reads { text := t } r d) (hq : Pin.needsQuotes r.pin.commitish = true) :
    ∀ x ∈ r.pin.commitish, FoldsSingly x := by
  obtain ⟨s, v, hs, -, -, rfl⟩ := exists_text_eq ht
  obtain ⟨e, hp, -⟩ := parser_reads_iff.mp h
  obtain ⟨-, ⟨hbare, -⟩ | ⟨-, hm, rfl⟩⟩ := Pin.declaration_eq_ok_iff.mp hs
  · exact absurd (hbare.symm.trans hq) nofun
  · have hquotable := Pin.quotable_of_parser_reads (plain_fresh _) (inText_fresh _)
      (aligned_fresh _) rfl hp
    exact (quotable_iff_foldsSingly hm).mp hquotable

/-- A resolved pin is read back from its written form, up to its end, exactly if its commit can
stand bare or folds singly. -/
theorem reads_text_iff (hr : r.platforms ≠ .among ∅) (ht : r.text = .ok t) :
    (parser.run { text := t }).outcome = .value r ∧
        (parser.run { text := t }).cursor.isAtEnd = true ↔
      (Pin.needsQuotes r.pin.commitish = true → ∀ x ∈ r.pin.commitish, FoldsSingly x) := by
  constructor
  · rintro ⟨hread, -⟩
    exact foldsSingly_of_reads_text ht ⟨hread, rfl⟩
  · intro hfold
    obtain ⟨d, ⟨hread, rfl⟩, hend⟩ := exists_reads_text hr ht hfold
    exact ⟨hread, hend⟩

/-- A tag of two words, for two platforms, is read back. -/
theorem reads_text_two_words :
    text { pin := ⟨"big step".toList⟩, platforms := .among (.ofList [.linux, .ios]) } =
        .ok "\"big step\" @platforms [ios, linux]".toList ∧
      (parser.run { text := "\"big step\" @platforms [ios, linux]".toList }).outcome =
        .value { pin := ⟨"big step".toList⟩, platforms := .among (.ofList [.linux, .ios]) } := by
  have htext : text { pin := ⟨"big step".toList⟩, platforms := .among (.ofList [.linux, .ios]) } =
      .ok "\"big step\" @platforms [ios, linux]".toList := rfl
  exact ⟨htext, ((reads_text_iff (by decide) htext).mpr fun _ => forall_mem_of_all (by decide)).1⟩

/-- A letter that folds to two shifts the mark behind the second word. -/
theorem not_reads_text_long_letter :
    text { pin := ⟨"ß b".toList⟩, platforms := .among (.ofList [.ios]) } =
        .ok "\"ß b\" @platforms [ios]".toList ∧
      (parser.run { text := "\"ß b\" @platforms [ios]".toList }).outcome ≠
        .value { pin := ⟨"ß b".toList⟩, platforms := .among (.ofList [.ios]) } :=
  ⟨rfl, by decide +kernel⟩

end ResolvedPin

end DependencyClause
