import DependencyClause.Proofs.Grammar.Platforms

/-!
# Platform restrictions as they are written

The grammar derives the written form of every restriction but the one to no platform, and the form
folds singly. So the form can be read back wherever it stands between blanks.
-/

namespace DependencyClause.PlatformRestriction

open Text

/-- Names that are parted by commas and blanks are a list of the grammar. -/
private theorem itemsWritten_names {l : List Platform} (hne : l ≠ []) :
    ItemsWritten l (List.intercalate ", ".toList (l.map Platform.text)) ∧
      ∀ x ∈ List.intercalate ", ".toList (l.map Platform.text), FoldsSingly x := by
  induction l with
  | nil => exact absurd rfl hne
  | cons p l ih =>
    have hp : p.Written p.text := ⟨p.text, List.mem_cons_self, rfl⟩
    have hfold : ∀ x ∈ p.text, FoldsSingly x :=
      Platform.foldsSingly_of_mem_spellings (p := p) List.mem_cons_self
    cases l with
    | nil =>
      rw [List.map_singleton, List.intercalate_singleton]
      exact ⟨.last hp, hfold⟩
    | cons q l =>
      obtain ⟨hitems, hrest⟩ := ih nofun
      have hsplit : List.intercalate ", ".toList ((p :: q :: l).map Platform.text) =
          p.text ++ [] ++ ',' :: [' '] ++
            List.intercalate ", ".toList ((q :: l).map Platform.text) := by
        rw [List.map_cons, List.map_cons, List.intercalate_cons_cons]
        simp
      rw [hsplit]
      refine ⟨.more hp isBlankRun_nil isBlankRun_space hitems, fun x hx => ?_⟩
      rcases List.mem_append.mp hx with hx | hx
      · rcases List.mem_append.mp hx with hx | hx
        · exact hfold x (by simpa using hx)
        · have hmarks : ∀ x ∈ [',', ' '], FoldsSingly x := forall_mem_of_all (by decide)
          exact hmarks x hx
      · exact hrest x hx

/-- A list of platforms in its written form, which folds singly. -/
private theorem among_text {s : PlatformSet} (hs : s ≠ ∅) :
    (among s).Written (among s).text ∧ ∀ x ∈ (among s).text, FoldsSingly x := by
  have hne : s.platforms ≠ [] := by
    intro he
    apply hs
    rw [← PlatformSet.ofList_platforms s, he]
    rfl
  obtain ⟨hitems, hfold⟩ := itemsWritten_names hne
  have hsplit : (among s).text =
      keyword ++ [' '] ++ '[' :: [] ++ (among s).names ++ [] ++ [']'] := by
    rw [text, List.append_nil]
    simp
  rw [hsplit]
  constructor
  · have hw := Written.among fold_keyword isBlankRun_space isBlankRun_nil hitems isBlankRun_nil
    rwa [PlatformSet.ofList_platforms] at hw
  · intro x hx
    simp only [List.append_nil, List.mem_append, List.mem_cons, List.not_mem_nil, or_false] at hx
    rcases hx with (((hx | rfl) | rfl) | hx) | rfl
    · exact foldsSingly_keyword x hx
    · decide
    · decide
    · exact hfold x hx
    · decide

/-- Every restriction but the one to no platform is written as the grammar has it. -/
theorem written_text {r : PlatformRestriction} (hr : r ≠ among ∅) : r.Written r.text := by
  cases r with
  | unrestricted => exact .unrestricted
  | among s => exact (among_text fun hs => hr (congrArg among hs)).1

/-- A restriction is written in characters that fold singly. -/
theorem foldsSingly_text {r : PlatformRestriction} (hr : r ≠ among ∅) :
    ∀ x ∈ r.text, FoldsSingly x := by
  cases r with
  | unrestricted => exact List.forall_mem_nil _
  | among s => exact (among_text fun hs => hr (congrArg among hs)).2

/-- A restriction that the grammar derives from some text names a platform, or restricts nothing. -/
theorem ne_among_empty_of_written {r : PlatformRestriction} {t : List Char} (h : r.Written t) :
    r ≠ among ∅ := by
  cases h with
  | unrestricted => exact nofun
  | @among l k t' u v w hk hu hv hl hw =>
    intro he
    have hmem : ∀ p ∈ l, False := by
      intro p hp
      rw [← PlatformSet.mem_ofList, among.inj he] at hp
      exact PlatformSet.not_mem_empty p hp
    cases hl with
    | last hp => exact hmem _ List.mem_cons_self
    | more hp hu hv hl => exact hmem _ List.mem_cons_self

end DependencyClause.PlatformRestriction
