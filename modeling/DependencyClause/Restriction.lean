import DependencyClause.Platform

/-!
# Platform restrictions

A restriction names the platforms for which a dependency counts, or none, and then it counts for
all. A set of platforms is kept in the order of `Platform.all`, so sets with the same members are
equal and are written alike.

In a clause a restriction is the keyword and a list of platforms in brackets, parted by commas;
where the keyword is missing nothing is restricted. A further platform is sought only behind a comma
within the text (`location_lt_of_item`), so every list comes to an end.
-/

namespace DependencyClause

/-- A set of platforms. -/
structure PlatformSet where
  /-- The members, in the order of all platforms. -/
  platforms : List Platform
  /-- Nothing but this order. -/
  sublist : platforms.Sublist Platform.all
deriving DecidableEq

namespace PlatformSet

instance : Membership Platform PlatformSet := ⟨fun s p => p ∈ s.platforms⟩

instance (p : Platform) (s : PlatformSet) : Decidable (p ∈ s) :=
  inferInstanceAs (Decidable (p ∈ s.platforms))

theorem mem_iff {p : Platform} {s : PlatformSet} : p ∈ s ↔ p ∈ s.platforms := Iff.rfl

/-- The set of the platforms in a list. -/
def ofList (l : List Platform) : PlatformSet := ⟨Platform.all.filter (· ∈ l), List.filter_sublist⟩

@[simp] theorem mem_ofList {p : Platform} {l : List Platform} : p ∈ ofList l ↔ p ∈ l := by
  simp [mem_iff, ofList, Platform.mem_all]

instance : EmptyCollection PlatformSet := ⟨ofList []⟩

/-- The set with one more member. -/
def insert (s : PlatformSet) (p : Platform) : PlatformSet := ofList (p :: s.platforms)

@[simp] theorem mem_insert {p q : Platform} {s : PlatformSet} : q ∈ s.insert p ↔ q = p ∨ q ∈ s := by
  rw [insert, mem_ofList, List.mem_cons, mem_iff]

@[simp] theorem not_mem_empty (p : Platform) : ¬ p ∈ (∅ : PlatformSet) := by
  change ¬ p ∈ ofList []
  simp

/-- Of a list without repetitions, a sublist is what its members leave. -/
private theorem filter_mem_eq {l m : List Platform} (h : l.Sublist m) (hm : m.Nodup) :
    m.filter (· ∈ l) = l := by
  induction h with
  | slnil => rfl
  | cons a h ih =>
    obtain ⟨ha, hm⟩ := List.nodup_cons.1 hm
    have hl := fun hl => ha (h.subset hl)
    rw [List.filter_cons_of_neg (by simpa using hl), ih hm]
  | cons_cons a h ih =>
    obtain ⟨ha, hm⟩ := List.nodup_cons.1 hm
    rw [List.filter_cons_of_pos (by simp)]
    refine congrArg (a :: ·) (Eq.trans (List.filter_congr fun p hp => ?_) (ih hm))
    have hp : p ≠ a := fun he => ha (he ▸ hp)
    simp [hp]

/-- Every set is the set of its members. -/
theorem ofList_platforms (s : PlatformSet) : ofList s.platforms = s := by
  obtain ⟨l, h⟩ := s
  simp only [ofList, filter_mem_eq h Platform.nodup_all]

/-- Sets with the same members are equal. -/
theorem ext_mem {s t : PlatformSet} (h : ∀ p, p ∈ s ↔ p ∈ t) : s = t := by
  rw [← ofList_platforms s, ← ofList_platforms t]
  simp only [mem_iff] at h
  simp only [ofList, h]

end PlatformSet

/-- The platforms for which something counts. -/
inductive PlatformRestriction where
  /-- It counts for every platform. -/
  | unrestricted
  /-- It counts for the platforms in a set. -/
  | among (platforms : PlatformSet)
deriving DecidableEq

namespace PlatformRestriction

/-- The restriction lets the platform pass. -/
def Accepts : PlatformRestriction → Platform → Prop
  | unrestricted, _ => True
  | among s, p => p ∈ s

instance : (r : PlatformRestriction) → (p : Platform) → Decidable (r.Accepts p)
  | unrestricted, _ => inferInstanceAs (Decidable True)
  | among s, p => inferInstanceAs (Decidable (p ∈ s))

/-- The names in the restriction, parted by commas. -/
def names : PlatformRestriction → List Char
  | unrestricted => []
  | among s => List.intercalate ", ".toList (s.platforms.map Platform.text)

/-- The word that opens a list of platforms in a clause. -/
def keyword : List Char := "@platforms".toList

/-- The written form of a restriction; there is none where nothing is restricted. -/
def text : PlatformRestriction → List Char
  | unrestricted => []
  | among s => keyword ++ " [".toList ++ (among s).names ++ [']']

/-- A list of platforms was to be made from no platform. -/
structure NoPlatform where
deriving DecidableEq

/-- The wording of the error. -/
def NoPlatform.message (_ : NoPlatform) : List Char :=
  "a platform list needs at least one platform".toList

/-- The restriction to the platforms in a list, of which there has to be one at least. -/
def ofList : List Platform → Except NoPlatform PlatformRestriction
  | [] => .error {}
  | p :: l => .ok (among (.ofList (p :: l)))

/-- Reads one platform of a list and tells whether another one follows. -/
def item : Parser (Platform × Bool) := do
  let p ← Platform.parser
  if ← .literal [']'] then return (p, false)
  if ← .literal [','] then return (p, true)
  .reject .listMalformed

/-- Before another platform follows, the cursor moves ahead and stays within the same text. -/
theorem location_lt_of_item {c : Cursor} {p : Platform}
    (h : (item.run c).outcome = .value (p, true)) :
    (item.run c).cursor.text = c.text ∧ c.location < (item.run c).cursor.location ∧
      (item.run c).cursor.location ≤ c.text.length := by
  revert h
  simp only [item, Parser.run_bind, Platform.parser, Platform.parserFor_run]
  cases hf : Platform.find? Platform.vocabulary c with
  | none => nofun
  | some found =>
    obtain ⟨q, d⟩ := found
    obtain ⟨ht, hl⟩ := Platform.location_lt_of_find? hf
    cases hb : d.literal? [']'] with
    | some e => simp [Parser.run_literal_of_some hb]
    | none =>
      cases hc : d.literal? [','] with
      | none => simp [Parser.run_literal_of_none hb, Parser.run_literal_of_none hc]
      | some e =>
        have he := Cursor.text_of_literal? hc
        have hle := Cursor.location_le_of_literal? hc
        have hlt := Cursor.location_lt_of_literal? hc
        rw [he, ht] at hle
        simp only [Parser.run_literal_of_none hb, Parser.run_literal_of_some hc,
          Parsed.andThen_value, Parser.run_bind, Parser.run_pure, Bool.false_eq_true, if_false,
          if_true]
        exact fun _ => ⟨he.trans ht, Nat.lt_trans hl hlt, hle⟩

/-- So less of the text lies ahead than before. -/
theorem measure_lt_of_item {c : Cursor} {p : Platform}
    (h : (item.run c).outcome = .value (p, true)) :
    (item.run c).cursor.text.length - (item.run c).cursor.location <
      c.text.length - c.location := by
  obtain ⟨ht, hl, hle⟩ := location_lt_of_item h
  rw [ht]
  omega

/-- Reads the platforms of a list up to the bracket that closes it, and adds them to a set. -/
def items (found : PlatformSet) (c : Cursor) : Parsed PlatformSet :=
  let r := item.run c
  match h : r.outcome with
  | .value (p, false) =>
    { outcome := .value (found.insert p), cursor := r.cursor, trace := r.trace }
  | .value (p, true) =>
    have := measure_lt_of_item h
    let s := items (found.insert p) r.cursor
    { s with trace := r.trace ++ s.trace }
  | .rejected f => { outcome := .rejected f, cursor := r.cursor, trace := r.trace }
  | .fault e => { outcome := .fault e, cursor := r.cursor, trace := r.trace }
termination_by c.text.length - c.location

/-- What holds of a list if it holds of the list behind its first item holds of every list. -/
theorem items_induction {motive : PlatformSet → Cursor → Prop}
    (step : ∀ found c, (∀ p, (item.run c).outcome = .value (p, true) →
      motive (found.insert p) (item.run c).cursor) → motive found c)
    (found : PlatformSet) (c : Cursor) : motive found c :=
  step found c fun p h =>
    have := measure_lt_of_item h
    items_induction step (found.insert p) (item.run c).cursor
termination_by c.text.length - c.location

/-- A list is its first item and, if another one follows, the list behind it. -/
theorem items_eq (found : PlatformSet) : (⟨items found⟩ : Parser PlatformSet) = do
    let (p, more) ← item
    if more then ⟨items (found.insert p)⟩ else return found.insert p := by
  refine congrArg Parser.mk (funext fun c => ?_)
  rw [items]
  split
  all_goals
    next h => simp [Parsed.andThen, h]

/-- Reads a platform restriction, if there is one. -/
def parser : Parser PlatformRestriction :=
  .noting (fun c cause => .listRejected c.location cause) do
    if ← .literal keyword then
      if ← .literal ['['] then return among (← ⟨items ∅⟩)
      .reject .listNotFound
    return unrestricted

end PlatformRestriction

end DependencyClause
