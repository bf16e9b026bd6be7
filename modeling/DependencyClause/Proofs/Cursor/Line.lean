import DependencyClause.Proofs.Cursor.Scan

/-!
# The line that holds the cursor

A line of a text reaches from the start of the text or from behind a line feed to the end of the
text or to the next line feed. Every offset is held by exactly one line; where the cursor is on a
line feed that is the line in front of it, and past the end of the text it is the last line.
-/

namespace DependencyClause

namespace Text

variable {t l l' before after before' after' : List Char} {n : Nat}

/-- The text is cut around one of its lines. -/
structure LineCut (t before l after : List Char) : Prop where
  /-- The line and what is around it make up the text. -/
  text_eq : t = before ++ l ++ after
  /-- There is no line feed in the line. -/
  not_mem : '\n' ∉ l
  /-- In front of the line there is nothing, or a line feed. -/
  before_eq : before = [] ∨ ∃ b, before = b ++ ['\n']
  /-- Behind the line there is nothing, or a line feed. -/
  after_eq : after = [] ∨ ∃ a, after = '\n' :: a

/-- The line holds the offset, which counts as the end of the text if it lies past it. -/
def IsLineAt (t : List Char) (n : Nat) (l : List Char) : Prop :=
  ∃ before after, LineCut t before l after ∧
    before.length ≤ min n t.length ∧ min n t.length ≤ before.length + l.length

namespace LineCut

/-- Where a line starts decides where it ends. -/
theorem line_eq (h : LineCut t before l after) :
    l = (t.drop before.length).takeWhile (· != '\n') := by
  have hl : ∀ x ∈ l, (x != '\n') = true := by
    intro x hx
    rw [bne_iff_ne]
    rintro rfl
    exact h.not_mem hx
  have hafter : after.takeWhile (· != '\n') = [] := by
    refine Cursor.takeWhile_eq_nil_of_head? ?_
    rcases h.after_eq with rfl | ⟨a, rfl⟩
    · exact nofun
    · simp
  rw [h.text_eq, List.append_assoc, List.drop_left, List.takeWhile_append_of_pos hl, hafter,
    List.append_nil]

/-- A line that does not start behind the end of another one does not start behind its start. -/
theorem length_before_le (h : LineCut t before l after) (h' : LineCut t before' l' after')
    (hle : before'.length ≤ before.length + l.length) : before'.length ≤ before.length := by
  refine Nat.le_of_not_lt fun hlt => ?_
  have hbegin : before <+: t := ⟨l ++ after, by rw [h.text_eq, List.append_assoc]⟩
  have hbegin' : before' <+: t := ⟨l' ++ after', by rw [h'.text_eq, List.append_assoc]⟩
  obtain ⟨u, rfl⟩ := List.prefix_of_prefix_length_le hbegin hbegin' (by omega)
  rw [List.length_append] at hle hlt
  have hu : u <+: l := by
    rw [h.text_eq, List.append_assoc, List.prefix_append_right_inj] at hbegin'
    exact List.prefix_of_prefix_length_le hbegin' (List.prefix_append l after) (by omega)
  -- The line feed in front of the later line would stand within the earlier one.
  have hmem : '\n' ∈ u := by
    rcases h'.before_eq with hnil | ⟨b, hb⟩
    · rw [List.append_eq_nil_iff] at hnil
      rw [hnil.2, List.length_nil] at hlt
      omega
    · have hsuffix : ['\n'] <:+ u := by
        refine List.suffix_of_suffix_length_le ⟨b, hb.symm⟩ (List.suffix_append before u) ?_
        rw [List.length_singleton]
        omega
      exact hsuffix.subset List.mem_cons_self
  exact h.not_mem (hu.subset hmem)

end LineCut

/-- No two lines hold one offset. -/
theorem IsLineAt.unique (h : IsLineAt t n l) (h' : IsLineAt t n l') : l = l' := by
  obtain ⟨before, after, hcut, hstart, hend⟩ := h
  obtain ⟨before', after', hcut', hstart', hend'⟩ := h'
  have hle := hcut.length_before_le hcut' (by omega)
  have hle' := hcut'.length_before_le hcut (by omega)
  rw [hcut.line_eq, hcut'.line_eq, Nat.le_antisymm hle hle']

end Text

namespace Cursor

open Text

/-- The lines in front of the cursor's line, with their line feeds. -/
def linesBefore (c : Cursor) : List Char :=
  ((c.text.take c.location).reverse.dropWhile (· != '\n')).reverse

/-- The lines behind the cursor's line, with the line feed that ends it. -/
def linesAfter (c : Cursor) : List Char := c.remaining.dropWhile (· != '\n')

theorem linesBefore_append_lineBefore (c : Cursor) :
    c.linesBefore ++ c.lineBefore = c.text.take c.location := by
  rw [linesBefore, lineBefore, ← List.reverse_append, List.takeWhile_append_dropWhile,
    List.reverse_reverse]

theorem lineAfter_append_linesAfter (c : Cursor) : c.lineAfter ++ c.linesAfter = c.remaining :=
  List.takeWhile_append_dropWhile

/-- A run that stops at line feeds holds none. -/
private theorem linefeed_not_mem_takeWhile (t : List Char) : '\n' ∉ t.takeWhile (· != '\n') := by
  intro h
  have hall := List.all_eq_true.mp (List.all_takeWhile (l := t) (p := (· != '\n'))) _ h
  simp at hall

/-- What follows such a run starts with a line feed. -/
private theorem dropWhile_linefeed (t : List Char) :
    t.dropWhile (· != '\n') = [] ∨ ∃ a, t.dropWhile (· != '\n') = '\n' :: a := by
  have hhead := List.head?_dropWhile_not (p := (· != '\n')) t
  cases h : t.dropWhile (· != '\n') with
  | nil => exact Or.inl rfl
  | cons x a =>
    rw [h] at hhead
    have hx : x = '\n' := by simpa using hhead
    exact Or.inr ⟨a, by rw [hx]⟩

/-- The text is cut around the cursor's line. -/
theorem lineCut_currentLine (c : Cursor) :
    LineCut c.text c.linesBefore c.currentLine c.linesAfter where
  text_eq := by
    rw [currentLine, ← List.append_assoc, linesBefore_append_lineBefore, List.append_assoc,
      lineAfter_append_linesAfter]
    exact (List.take_append_drop c.location c.text).symm
  not_mem := by
    rw [currentLine, List.mem_append, lineBefore, List.mem_reverse]
    rintro (h | h)
    · exact linefeed_not_mem_takeWhile _ h
    · exact linefeed_not_mem_takeWhile _ h
  before_eq := by
    rcases dropWhile_linefeed (c.text.take c.location).reverse with h | ⟨b, h⟩
    · exact Or.inl (by rw [linesBefore, h, List.reverse_nil])
    · exact Or.inr ⟨b.reverse, by rw [linesBefore, h, List.reverse_cons]⟩
  after_eq := dropWhile_linefeed c.remaining

/-- The cursor's line holds the location, and it is the only line that does. -/
theorem isLineAt_iff_eq_currentLine (c : Cursor) {l : List Char} :
    IsLineAt c.text c.location l ↔ l = c.currentLine := by
  have hcurrent : IsLineAt c.text c.location c.currentLine := by
    have hlen := congrArg List.length c.linesBefore_append_lineBefore
    rw [List.length_append, List.length_take] at hlen
    refine ⟨c.linesBefore, c.linesAfter, c.lineCut_currentLine, by omega, ?_⟩
    rw [currentLine, List.length_append]
    omega
  constructor
  · exact fun h => h.unique hcurrent
  · rintro rfl
    exact hcurrent

end Cursor

end DependencyClause
