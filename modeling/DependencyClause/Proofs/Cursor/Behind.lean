import DependencyClause.Proofs.Cursor.Scan

/-!
# Cursors behind a prefix

`c.behind p` is the cursor `c` with the text `p` put in front of its text. What remains is the same,
so every scan finds the same, behind the prefix. A search looks at the whole text as it is compared,
so for searches the prefix has to fold singly; what `c` itself has behind it may fold in any way,
and `c` may lie past the end of its text.
-/

namespace DependencyClause

open Text

/-- Behind a beginning, a text first occurs where it occurs without the beginning. -/
theorem Text.occurrenceFrom?_append (needle s t : List Char) (n : Nat) :
    occurrenceFrom? needle (s ++ t) (s.length + n) =
      (occurrenceFrom? needle t n).map (s.length + ·) := by
  rw [occurrenceFrom?, occurrenceFrom?, List.length_append, List.drop_length_add_append]
  by_cases h : n ≤ t.length
  · rw [if_pos h, if_pos (Nat.add_le_add_left h _), Option.map_map]
    exact congrArg (Option.map · _) (funext fun k => Nat.add_assoc _ _ _)
  · rw [if_neg h, if_neg (by omega), Option.map_none]

namespace Cursor

/-- The cursor with a text put in front of its text. -/
def behind (p : List Char) (c : Cursor) : Cursor :=
  { c with text := p ++ c.text, location := p.length + c.location }

variable {p : List Char} {c : Cursor} {l : List Char}

@[simp] theorem remaining_behind : (c.behind p).remaining = c.remaining :=
  List.drop_length_add_append _

@[simp] theorem start_behind : (c.behind p).start = p.length + c.start := by
  rw [start, remaining_behind]
  exact Nat.add_assoc _ _ _

@[simp] theorem ahead_behind : (c.behind p).ahead = c.ahead := by
  rw [ahead, start_behind]
  exact List.drop_length_add_append _

@[simp] theorem cased_behind (t : List Char) : (c.behind p).cased t = c.cased t := rfl

@[simp] theorem inText_behind : (c.behind p).InText ↔ c.InText := by
  unfold InText
  change p.length + c.location ≤ (p ++ c.text).length ↔ _
  rw [List.length_append]
  omega

/-- Behind the prefix the cursor's line may start earlier; it ends as it does without the prefix. -/
theorem currentLine_behind : c.currentLine <:+ (c.behind p).currentLine := by
  have hbefore : c.lineBefore <:+ (c.behind p).lineBefore := by
    have htake : (c.behind p).text.take (c.behind p).location = p ++ c.text.take c.location :=
      List.take_length_add_append _
    rw [lineBefore, lineBefore, htake, List.reverse_append, List.takeWhile_append,
      List.reverse_suffix]
    split
    · next h =>
      rw [(List.takeWhile_prefix _).eq_of_length h]
      exact List.prefix_append _ _
    · exact List.prefix_rfl
  obtain ⟨l, hl⟩ := hbefore
  refine ⟨l, ?_⟩
  rw [currentLine, currentLine, lineAfter, lineAfter, remaining_behind, ← hl, List.append_assoc]

/-- A literal lies ahead behind the prefix where it lies ahead without it. -/
theorem literal?_behind : (c.behind p).literal? l = (c.literal? l).map (behind p) := by
  rw [literal?, literal?, ahead_behind, cased_behind, cased_behind, start_behind]
  split
  · rw [Option.map_some, Nat.add_assoc]
    rfl
  · rfl

theorem choose?_behind {α : Type} (spellings : List (List Char × α)) :
    (c.behind p).choose? spellings =
      (c.choose? spellings).map fun r => (r.1, r.2.behind p) := by
  induction spellings with
  | nil => rfl
  | cons s spellings ih =>
    rw [choose?, choose?, List.findSome?_cons, List.findSome?_cons, literal?_behind]
    cases c.literal? s.1 with
    | none => exact ih
    | some d => rfl

theorem runWhile?_behind (q : Char → Bool) :
    (c.behind p).runWhile? q = (c.runWhile? q).map fun r => (r.1, r.2.behind p) := by
  simp only [runWhile?, ahead_behind, start_behind]
  split
  · rfl
  · rw [Option.map_some, Nat.add_assoc]
    rfl

theorem run?_behind (k : CharSet) :
    (c.behind p).run? k = (c.run? k).map fun r => (r.1, r.2.behind p) := runWhile?_behind _

theorem runUpTo?_behind (k : CharSet) :
    (c.behind p).runUpTo? k = (c.runUpTo? k).map fun r => (r.1, r.2.behind p) := runWhile?_behind _

variable (hp : ∀ x ∈ p, FoldsSingly x)

include hp

/-- Behind a prefix that folds singly a search stops where it stops without it. -/
theorem stop_behind : (c.behind p).stop l = p.length + c.stop l := by
  have hocc := occurrenceFrom?_append (c.cased l) (c.cased p) (c.cased c.text) c.start
  rw [c.length_cased hp] at hocc
  rw [stop, stop, start_behind, cased_behind, cased_behind]
  change (occurrenceFrom? _ (c.cased (p ++ c.text)) _).getD (p ++ c.text).length = _
  rw [cased_append, hocc, List.length_append]
  cases occurrenceFrom? (c.cased l) (c.cased c.text) c.start with
  | none => rfl
  | some n => rfl

/-- Behind a prefix that folds singly a search takes what it takes without it. -/
theorem upTo?_behind :
    (c.behind p).upTo? l = (c.upTo? l).map fun r => (r.1, r.2.behind p) := by
  have htaken : ((p ++ c.text).take (p.length + c.stop l)).drop (p.length + c.start) =
      (c.text.take (c.stop l)).drop c.start := by
    rw [List.take_length_add_append, List.drop_length_add_append]
  rw [upTo?, upTo?, stop_behind hp, start_behind]
  by_cases h : c.stop l = c.start
  · rw [if_pos h, if_pos (congrArg _ h)]
    rfl
  · rw [if_neg h, if_neg fun he => h (Nat.add_left_cancel he), Option.map_some]
    exact congrArg some (Prod.ext htaken rfl)

end Cursor

end DependencyClause
