import BrainCore.Ledger.LedgerRows

/-!
# Corroboration

`applyCorroborationLift` of `services/ledger/src/reconciliation/persist.ts`: a
match raises the confidence of a side whose counter side is independent, and
promotes its provenance.  The sides are lifted one after the other, each on what
the lift before it has left.
-/

namespace BrainCore.Ledger

open BrainCore.Foundation BrainCore.Policy

def CORROBORATION_CONFIDENCE_CEILING : Rat := 9 / 10

/-- `COUNTER_SIDE_PROVENANCE_TABLES`. -/
def counterSideTable : EntityType → Option LedgerTable
  | .transaction => some .transactions
  | .invoice => some .invoices
  | .document => some .documents
  | .balance => some .balances
  | .obligation => some .obligations
  | .counterparty => some .counterparties
  | .account => some .accounts
  | .transfer => none

/-- `LIFTABLE_TABLES`. -/
def liftableTable : EntityType → Option LedgerTable
  | .obligation => some .obligations
  | .counterparty => some .counterparties
  | .account => some .accounts
  | .transaction | .invoice | .document | .balance | .transfer => none

def loadCounterSideProvenance (entity : MatchSide) : LedgerTransact (Option Provenance) :=
  match counterSideTable entity.type with
  | none => pure none
  | some table => Program.select fun db => (db.rows.find? ⟨table, entity.id⟩).map (·.provenance)

structure CorroborationSide where
  self : MatchSide
  counter : MatchSide

structure PromotedRow where
  id : String
  confidence : Rat
deriving DecidableEq

/-- The assignments of the lift. -/
def LedgerRow.lifted (row : LedgerRow) (confidenceScore : Rat) (now : Instant) : LedgerRow :=
  { row with
    confidence := max row.confidence (min confidenceScore CORROBORATION_CONFIDENCE_CEILING)
    provenance := if row.provenance.Capped then .extracted else row.provenance
    updatedAt := now }

/-- `UPDATE … WHERE id = $1 RETURNING id, confidence`. -/
def liftRow (key : LedgerKey) (confidenceScore : Rat) (now : Instant) :
    LedgerTransact (List PromotedRow) :=
  Program.execute fun db =>
    match db.rows.find? key with
    | none => .ok ([], [])
    | some row =>
        .ok ([.row (row.lifted confidenceScore now)],
          [⟨row.id, (row.lifted confidenceScore now).confidence⟩])

def liftSide (side : CorroborationSide) (confidenceScore : Rat) (now : Instant) :
    LedgerTransact (List PromotedRow) :=
  match liftableTable side.self.type with
  | none => pure []
  | some table => do
      let counterProv ← loadCounterSideProvenance side.counter
      if counterProv.any fun provenance => provenance.Independent then
        liftRow ⟨table, side.self.id⟩ confidenceScore now
      else pure []

def applyCorroborationLift (confidenceScore : Rat) (now : Instant) :
    List CorroborationSide → LedgerTransact (List PromotedRow)
  | [] => pure []
  | side :: rest => do
      let promoted ← liftSide side confidenceScore now
      let others ← applyCorroborationLift confidenceScore now rest
      return promoted ++ others

/-- The sides of a match, each with the other as its counter side. -/
def corroborationSides (left right : MatchSide) : List CorroborationSide :=
  [⟨left, right⟩, ⟨right, left⟩]

/-! ## One side alone -/

def LedgerDb.provenanceOf (db : LedgerDb) (entity : MatchSide) : Option Provenance :=
  match counterSideTable entity.type with
  | none => none
  | some table => (db.rows.find? ⟨table, entity.id⟩).map (·.provenance)

def LedgerDb.IndependentSide (db : LedgerDb) (entity : MatchSide) : Prop :=
  ∃ provenance, db.provenanceOf entity = some provenance ∧ provenance.Independent

/-- The row that a side is in, if the lift may update it. -/
def MatchSide.liftKey? (entity : MatchSide) : Option LedgerKey :=
  (liftableTable entity.type).map (⟨·, entity.id⟩)

/-- `next` is `db` with the row of a key lifted, and what the lift returns. -/
inductive Lifted (score : Rat) (now : Instant) (db : LedgerDb) (key : LedgerKey) :
    LedgerDb → List PromotedRow → Prop where
  | row (row : LedgerRow) (stored : db.rows.find? key = some row) :
      Lifted score now db key { db with rows := db.rows.put (row.lifted score now) }
        [⟨row.id, (row.lifted score now).confidence⟩]
  | missing (missing : db.rows.find? key = none) : Lifted score now db key db []

/-- A side is lifted when its counter side is independent, and else left alone. -/
inductive LiftsSide (score : Rat) (now : Instant) (db : LedgerDb) (side : CorroborationSide) :
    LedgerDb → List PromotedRow → Prop where
  | lift (key : LedgerKey) (next : LedgerDb) (promoted : List PromotedRow)
      (self : side.self.liftKey? = some key) (counter : db.IndependentSide side.counter)
      (lifted : Lifted score now db key next promoted) : LiftsSide score now db side next promoted
  | skip (blocked : side.self.liftKey? = none ∨ ¬db.IndependentSide side.counter) :
      LiftsSide score now db side db []

variable {score : Rat} {now : Instant} {db mid next : LedgerDb} {side : CorroborationSide}
  {promoted : List PromotedRow} {entity left right : MatchSide} {key : LedgerKey}

theorem loadCounterSideProvenance_alone {counterProv : Option Provenance} :
    (loadCounterSideProvenance entity).runAlone ledgerStore db = .ok (next, counterProv) ↔
      next = db ∧ counterProv = db.provenanceOf entity := by
  unfold loadCounterSideProvenance LedgerDb.provenanceOf
  cases counterSideTable entity.type with
  | none => exact Program.runAlone_pure
  | some table => exact Program.runAlone_select

theorem independentSide_iff :
    db.IndependentSide entity ↔
      ((db.provenanceOf entity).any fun provenance => decide provenance.Independent) = true := by
  rw [LedgerDb.IndependentSide, Option.any_eq_true]
  simp only [decide_eq_true_eq]

instance instDecidableIndependentSide : Decidable (db.IndependentSide entity) :=
  decidable_of_iff _ independentSide_iff.symm

theorem liftRow_alone :
    (liftRow key score now).runAlone ledgerStore db = .ok (next, promoted) ↔
      Lifted score now db key next promoted := by
  rw [liftRow, Program.runAlone_execute]
  cases hstored : db.rows.find? key with
  | none =>
      constructor
      · rintro ⟨new, hrun, rfl⟩
        cases hrun
        exact .missing hstored
      · intro h
        cases h with
        | row row stored => rw [hstored] at stored; cases stored
        | missing => exact ⟨[], rfl, rfl⟩
  | some row =>
      constructor
      · rintro ⟨new, hrun, rfl⟩
        cases hrun
        exact .row row hstored
      · intro h
        cases h with
        | row other stored =>
            rw [hstored] at stored
            cases stored
            exact ⟨_, rfl, rfl⟩
        | missing missing => rw [hstored] at missing; cases missing

theorem liftSide_alone :
    (liftSide side score now).runAlone ledgerStore db = .ok (next, promoted) ↔
      LiftsSide score now db side next promoted := by
  unfold liftSide
  cases htable : liftableTable side.self.type with
  | none =>
      have hkey : side.self.liftKey? = none := by rw [MatchSide.liftKey?, htable, Option.map_none]
      rw [Program.runAlone_pure]
      constructor
      · rintro ⟨rfl, rfl⟩
        exact .skip (.inl hkey)
      · intro h
        cases h with
        | lift key _ _ self => rw [hkey] at self; cases self
        | skip => exact ⟨rfl, rfl⟩
  | some table =>
      have hkey : side.self.liftKey? = some ⟨table, side.self.id⟩ := by
        rw [MatchSide.liftKey?, htable, Option.map_some]
      simp only [Program.runAlone_bind, loadCounterSideProvenance_alone]
      constructor
      · rintro ⟨middle, counterProv, ⟨rfl, rfl⟩, hrest⟩
        split at hrest
        · rename_i hindependent
          exact .lift _ next promoted hkey (independentSide_iff.mpr hindependent)
            (liftRow_alone.mp hrest)
        · rename_i hblocked
          obtain ⟨rfl, rfl⟩ := Program.runAlone_pure.mp hrest
          exact .skip (.inr (mt independentSide_iff.mp hblocked))
      · intro h
        refine ⟨db, _, ⟨rfl, rfl⟩, ?_⟩
        cases h with
        | lift key _ _ self counter lifted =>
            obtain rfl := Option.some.inj (hkey.symm.trans self)
            rw [if_pos (independentSide_iff.mp counter)]
            exact liftRow_alone.mpr lifted
        | skip blocked =>
            have hblocked := blocked.resolve_left (by rw [hkey]; exact Option.some_ne_none _)
            rw [if_neg (mt independentSide_iff.mpr hblocked)]
            exact Program.runAlone_pure.mpr ⟨rfl, rfl⟩

/-- The lift of a match: of its left side, and on what that has left, of its right side. -/
theorem applyCorroborationLift_alone :
    (applyCorroborationLift score now (corroborationSides left right)).runAlone ledgerStore db =
        .ok (next, promoted) ↔
      ∃ mid first second, LiftsSide score now db ⟨left, right⟩ mid first ∧
        LiftsSide score now mid ⟨right, left⟩ next second ∧ promoted = first ++ second := by
  simp only [corroborationSides, applyCorroborationLift, Program.runAlone_bind,
    Program.runAlone_pure, liftSide_alone]
  constructor
  · rintro ⟨mid, first, hfirst, last, _, ⟨last', second, hsecond, _, _, ⟨rfl, rfl⟩, rfl, rfl⟩, rfl, rfl⟩
    exact ⟨mid, first, second, hfirst, hsecond, by rw [List.append_nil]⟩
  · rintro ⟨mid, first, second, hfirst, hsecond, rfl⟩
    exact ⟨mid, first, hfirst, next, second,
      ⟨next, second, hsecond, next, [], ⟨rfl, rfl⟩, rfl, (List.append_nil _).symm⟩, rfl, rfl⟩

end BrainCore.Ledger
