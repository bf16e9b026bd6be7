import DependencyClause.Proofs.Cursor.Scan
import DependencyClause.Proofs.Parser.Reads
import DependencyClause.Proofs.Trace.Origin
import DependencyClause.Session

/-!
# What parsers have from their parts

A property of parsers and cursors is compositional if the primitive parsers have it wherever they
are run, and the ways to build parsers hand it on. It may depend on the layer of reading that a
parser is a part of; no layer is given for what is read alone. Every parser has a compositional
property; for pins it has to be shown where a bare pin is read, since that can fail in a way of its
own.
-/

namespace DependencyClause

open Text

/-- The primitive parsers have the property at every cursor, and a built parser has it where its
parts do. A layer rejects for its own causes, and hands rejections on to the layer around it. -/
structure Parser.Compositional (L : Option Layer → ∀ {α : Type}, Parser α → Cursor → Prop) :
    Prop where
  /-- Reading nothing. -/
  pure {o : Option Layer} {α : Type} (a : α) (c : Cursor) : L o (pure a : Parser α) c
  /-- Rejecting the text in printable words. -/
  reject {o : Option Layer} {α : Type} {cause : Cause} (ho : ∀ l ∈ o, cause.origin = some l)
    (hw : Printable cause.message) (c : Cursor) : L o (Parser.reject cause : Parser α) c
  /-- Passing over a literal. -/
  literal {o : Option Layer} (l : List Char) (c : Cursor) : L o (Parser.literal l) c
  /-- Looking for the end of the text. -/
  atEnd {o : Option Layer} (c : Cursor) : L o Parser.atEnd c
  /-- Passing over one of some spellings. -/
  choose? {o : Option Layer} {α : Type} (spellings : List (List Char × α)) (c : Cursor) :
    L o (Parser.scan (·.choose? spellings)) c
  /-- Taking a run of characters. -/
  run? {o : Option Layer} (k : CharSet) (c : Cursor) : L o (Parser.scan (·.run? k)) c
  /-- Taking the text up to a literal. -/
  upTo? {o : Option Layer} (l : List Char) (c : Cursor) : L o (Parser.scan (·.upTo? l)) c
  /-- Reading a bare version of some library. -/
  bareVersion [VersionLibrary] {o : Option Layer} (c : Cursor) :
    L o VersionConstraint.bareVersion c
  /-- Reading one part behind another one. -/
  bind {o : Option Layer} {α β : Type} {p : Parser α} {f : α → Parser β} {c : Cursor} (hp : L o p c)
    (hf : ∀ a, (p.run c).outcome = .value a → L o (f a) (p.run c).cursor) : L o (p >>= f) c
  /-- Minding case or not. -/
  withCase {o : Option Layer} {α : Type} {p : Parser α} {c : Cursor} (b : Bool)
    (hp : L o p { c with caseSensitive := b }) : L o (Parser.withCase b p) c
  /-- Skipping the characters of a set. -/
  skipping {o : Option Layer} {α : Type} {p : Parser α} {c : Cursor} (k : CharSet)
    (hp : L o p { c with skip := k }) : L o (Parser.skipping k p) c
  /-- Noting the rejections of a layer within a clause. -/
  noting {o : Option Layer} {m : Layer} {α : Type} {p : Parser α} {c : Cursor} (hm : m ≠ .clause)
    (ho : ∀ l ∈ o, m.around = some l) (hp : L (some m) p c) :
    L o (Parser.noting (fun d cause => m.event d cause) p) c

/-- A run that is taken consists of characters from its set. -/
theorem Parser.mem_of_run?_eq_value {k : CharSet} {c : Cursor} {t : List Char}
    (h : ((scan (·.run? k)).run c).outcome = .value (some t)) : ∀ x ∈ t, x ∈ k := by
  obtain ⟨d, hd⟩ := outcome_eq_value_iff.mp h
  rcases reads_scan.mp hd with ⟨s, hs, hrun⟩ | ⟨hnone, -⟩
  · obtain rfl := Option.some.inj hs
    exact (Cursor.run?_eq_some_iff.mp hrun).2.2.1
  · exact absurd hnone nofun

namespace Parser.Compositional

variable {L : Option Layer → ∀ {α : Type}, Parser α → Cursor → Prop} {o : Option Layer} {c : Cursor}

theorem ite {α : Type} {b : Prop} [Decidable b] {p q : Parser α} (hp : b → L o p c)
    (hq : ¬ b → L o q c) : L o (if b then p else q) c := by
  split
  · next h => exact hp h
  · next h => exact hq h

/-- A layer rejects for its own causes. -/
theorem rejectWithin (h : Compositional L) {α : Type} {cause : Cause} {l : Layer}
    (hl : cause.origin = some l) (hw : Printable cause.message) :
    L (some l) (Parser.reject cause : Parser α) c :=
  h.reject (fun _ hl' => hl.trans hl') hw c

theorem quotation (h : Compositional L) (ho : ∀ l ∈ o, l = .constraint) : L o quotation c := by
  apply h.skipping
  apply h.bind (h.upTo? _ _)
  intro body _
  apply h.bind (h.literal _ _)
  intro b _
  exact ite (fun _ => h.pure _ _) fun _ =>
    h.reject (fun l hl => ho l hl ▸ rfl) (printable_of_ascii rfl) _

theorem platform (h : Compositional L) (ho : ∀ l ∈ o, l = .platformList) :
    L o Platform.parser c := by
  apply h.noting (m := .platform) nofun fun l hl => ho l hl ▸ rfl
  apply h.bind (h.withCase _ (h.choose? _ _))
  intro found _
  cases found with
  | none => exact h.rejectWithin rfl (printable_of_ascii rfl)
  | some p => exact h.pure _ _

theorem platformPin (h : Compositional L) : L none PlatformPin.parser c :=
  h.bind (h.platform (o := none) nofun) fun _ _ => h.pure _ _

theorem item (h : Compositional L) : L (some .platformList) PlatformRestriction.item c := by
  apply h.bind (h.platform fun _ hl => (Option.some.inj hl).symm)
  intro p _
  apply h.bind (h.literal _ _)
  intro b _
  refine ite (fun _ => h.pure _ _) fun _ => ?_
  apply h.bind (h.literal _ _)
  intro b' _
  exact ite (fun _ => h.pure _ _) fun _ => h.rejectWithin rfl (printable_of_ascii rfl)

theorem items (h : Compositional L) (found : PlatformSet) :
    L (some .platformList) ⟨PlatformRestriction.items found⟩ c := by
  induction found, c using PlatformRestriction.items_induction with
  | step found c ih =>
    rw [PlatformRestriction.items_eq]
    apply h.bind h.item
    rintro ⟨p, more⟩ ha
    cases more with
    | false => exact h.pure _ _
    | true => exact ih p ha

theorem restriction (h : Compositional L) (ho : ∀ l ∈ o, l = .clause) :
    L o PlatformRestriction.parser c := by
  apply h.noting (m := .platformList) nofun fun l hl => ho l hl ▸ rfl
  apply h.bind (h.literal _ _)
  intro b _
  refine ite (fun _ => ?_) fun _ => h.pure _ _
  apply h.bind (h.literal _ _)
  intro b' _
  refine ite (fun _ => ?_) fun _ => h.rejectWithin rfl (printable_of_ascii rfl)
  exact h.bind (h.items ∅) fun _ _ => h.pure _ _

theorem operand [VersionLibrary] (h : Compositional L) (p : Comparison) :
    L (some .constraint) (VersionConstraint.operand p) c := by
  apply h.bind (h.run? _ _)
  intro found hfound
  cases found with
  | none => exact h.rejectWithin rfl (Cause.printable_versionMissing p)
  | some t =>
    cases hv : Version.ofTag? t with
    | none =>
      simp only [hv]
      exact h.rejectWithin rfl (Cause.printable_versionInvalid (mem_of_run?_eq_value hfound))
    | some v =>
      simp only [hv]
      exact h.pure _ _

theorem constraint [VersionLibrary] (h : Compositional L) (ho : ∀ l ∈ o, l = .clause) :
    L o VersionConstraint.parser c := by
  apply h.noting (m := .constraint) nofun fun l hl => ho l hl ▸ rfl
  apply h.bind (h.choose? _ _)
  intro found _
  cases found with
  | some p => exact h.operand p
  | none =>
    apply h.bind (h.literal _ _)
    intro b _
    refine ite (fun _ => ?_) fun _ => h.bareVersion _
    exact h.bind (h.quotation fun _ hl => (Option.some.inj hl).symm) fun _ _ => h.pure _ _

theorem clause [VersionLibrary] (h : Compositional L) (ho : ∀ l ∈ o, l = .clause) :
    L o Clause.parser c := by
  apply h.bind (h.constraint ho)
  intro q _
  exact h.bind (h.restriction ho) fun _ _ => h.pure _ _

theorem complete [VersionLibrary] (h : Compositional L) : L (some .clause) Clause.complete c := by
  apply h.bind (h.clause fun _ hl => (Option.some.inj hl).symm)
  intro k _
  apply h.bind (h.atEnd _)
  intro b _
  exact ite (fun _ => h.pure _ _) fun _ => h.rejectWithin rfl (printable_of_ascii rfl)

/-- Where a pin does not stand between quotation marks it is read where the cursor is. -/
theorem pin (h : Compositional L) (hbare : L none Pin.bare c) : L none Pin.parser c := by
  apply h.bind (h.literal _ _)
  intro b hb
  refine ite (fun _ => ?_) fun hfalse => ?_
  · apply h.bind (h.quotation (o := none) nofun)
    intro body _
    exact ite (fun _ => h.reject (o := none) nofun (printable_of_ascii rfl) _) fun _ => h.pure _ _
  · obtain ⟨d, hd⟩ := outcome_eq_value_iff.mp hb
    rcases reads_literal.mp hd with ⟨rfl, -⟩ | ⟨-, -, hstay⟩
    · exact absurd rfl hfalse
    · rwa [hd.2, hstay]

theorem resolvedPin (h : Compositional L) (hbare : L none Pin.bare c) :
    L none ResolvedPin.parser c := by
  apply h.bind (h.pin hbare)
  intro p _
  exact h.bind (h.restriction (o := none) nofun) fun _ _ => h.pure _ _

/-- Every parser has a compositional property, if bare pins have it where pins are read. -/
theorem target [VersionLibrary] (h : Compositional L) (t : Target)
    (hbare : t = .pin ∨ t = .resolvedPin → L none Pin.bare c) : L none t.parser c := by
  cases t with
  | platform => exact h.bind (h.platform (o := none) nofun) fun _ _ => h.pure _ _
  | platformPin => exact h.bind h.platformPin fun _ _ => h.pure _ _
  | restriction => exact h.bind (h.restriction (o := none) nofun) fun _ _ => h.pure _ _
  | pin => exact h.bind (h.pin (hbare (.inl rfl))) fun _ _ => h.pure _ _
  | constraint => exact h.bind (h.constraint (o := none) nofun) fun _ _ => h.pure _ _
  | clause => exact h.bind (h.clause (o := none) nofun) fun _ _ => h.pure _ _
  | resolvedPin => exact h.bind (h.resolvedPin (hbare (.inr rfl))) fun _ _ => h.pure _ _

end Parser.Compositional

end DependencyClause
