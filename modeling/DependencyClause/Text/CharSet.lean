/-!
# Character sets

A `CharSet` is a finite set of characters, kept as the list of its members by ascending code point.
The order is part of the type, so two sets with the same members are equal.
-/

namespace DependencyClause

/-- A finite set of characters. -/
structure CharSet where
  /-- The members by ascending code point, each once. -/
  chars : List Char
  /-- The members ascend strictly. -/
  ascending : chars.Pairwise (· < ·) := by decide
deriving DecidableEq

namespace CharSet

instance : Membership Char CharSet := ⟨fun s c => c ∈ s.chars⟩

instance (c : Char) (s : CharSet) : Decidable (c ∈ s) := inferInstanceAs (Decidable (c ∈ s.chars))

instance : EmptyCollection CharSet := ⟨{ chars := [] }⟩

@[simp] theorem not_mem_empty (c : Char) : ¬ c ∈ (∅ : CharSet) := List.not_mem_nil

/-- Puts a character at its place in an ascending list, unless it is there. -/
def place (c : Char) : List Char → List Char
  | [] => [c]
  | d :: l => if c < d then c :: d :: l else if c = d then d :: l else d :: place c l

theorem mem_place {c d : Char} {l : List Char} : d ∈ place c l ↔ d = c ∨ d ∈ l := by
  induction l with
  | nil => simp [place]
  | cons e l ih =>
    simp only [place]
    split
    · simp
    · split
      · next h => subst h; simp
      · simp only [List.mem_cons, ih]
        constructor
        · rintro (h | h | h) <;> simp [h]
        · rintro (h | h | h) <;> simp [h]

theorem pairwise_place {c : Char} {l : List Char} (h : l.Pairwise (· < ·)) :
    (place c l).Pairwise (· < ·) := by
  induction l with
  | nil => simp [place]
  | cons d l ih =>
    obtain ⟨h₁, h₂⟩ := List.pairwise_cons.1 h
    simp only [place]
    split
    · next hc =>
      refine List.pairwise_cons.2 ⟨fun e he => ?_, h⟩
      rcases List.mem_cons.1 he with rfl | he
      · exact hc
      · exact Char.lt_trans hc (h₁ e he)
    · split
      · exact h
      · next hc hd =>
        refine List.pairwise_cons.2 ⟨fun e he => ?_, ih h₂⟩
        rcases mem_place.1 he with rfl | he
        · exact Classical.byContradiction fun h =>
            hd (Char.le_antisymm (Char.not_lt.1 h) (Char.not_lt.1 hc))
        · exact h₁ e he

/-- The set with one more member. -/
def insert (s : CharSet) (c : Char) : CharSet := ⟨place c s.chars, pairwise_place s.ascending⟩

@[simp] theorem mem_insert {s : CharSet} {c d : Char} : d ∈ s.insert c ↔ d = c ∨ d ∈ s := mem_place

/-- The characters of a list. -/
def ofList (l : List Char) : CharSet := l.foldr (fun c s => s.insert c) ∅

@[simp] theorem mem_ofList {l : List Char} {c : Char} : c ∈ ofList l ↔ c ∈ l := by
  induction l with
  | nil => simp [ofList]
  | cons d l ih =>
    change c ∈ (ofList l).insert d ↔ c ∈ d :: l
    rw [mem_insert, ih, List.mem_cons]

/-- The blanks that separate the parts of a clause: space, tab, carriage return and line feed. -/
def blanks : CharSet := ofList " \t\r\n".toList

/-- The characters that a version may hold. -/
def versionCharacters : CharSet :=
  ofList "0123456789abcdefghijklmnopqrstuvwxyzABCDEFGHIJKLMNOPQRSTUVWXYZ.-+".toList

end CharSet

end DependencyClause
