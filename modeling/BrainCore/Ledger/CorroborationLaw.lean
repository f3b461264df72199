import BrainCore.Ledger.Corroboration

/-!
# The law of corroboration

What the lift of a match should do to its two sides, and when it does: a side
whose provenance is capped, matched with an independent one, is promoted by the
first lift and vouches for the other side in the second.
-/

namespace BrainCore.Ledger

open BrainCore.Foundation BrainCore.Policy

/-- How a row may differ after it was corroborated. -/
structure Raised (score : Rat) (old new : LedgerRow) : Prop where
  upward : old.confidence ≤ new.confidence
  ceiling : new.confidence ≤ max old.confidence (min score CORROBORATION_CONFIDENCE_CEILING)
  promotes : new.provenance ≠ old.provenance →
    old.provenance.Capped ∧ new.provenance = .extracted

/-- A row has more confidence or another provenance than it had. -/
def Gains (old new : LedgerRow) : Prop :=
  old.confidence < new.confidence ∨ new.provenance ≠ old.provenance

/-- The outcome that a match of two sides should have. -/
structure CorroborationLaw (db next : LedgerDb) (promoted : List PromotedRow)
    (left right : MatchSide) (score : Rat) (now : Instant) : Prop where
  raised : ∀ key old, db.rows.find? key = some old →
    ∃ new, next.rows.find? key = some new ∧ Raised score old new
  gated : ∀ key old new, db.rows.find? key = some old → next.rows.find? key = some new →
    Gains old new → (left.liftKey? = some key ∧ db.IndependentSide right) ∨
      (right.liftKey? = some key ∧ db.IndependentSide left)
  symmetric : ∃ swapped,
    (applyCorroborationLift score now (corroborationSides right left)).runAlone ledgerStore db =
      .ok (next, swapped) ∧ swapped.Perm promoted

/-- Both sides can be lifted, the first is of a capped provenance and the second independent. -/
structure Mixed (db : LedgerDb) (low high : MatchSide) : Prop where
  lowLiftable : low.liftKey? ≠ none
  highLiftable : high.liftKey? ≠ none
  low : ∃ provenance, db.provenanceOf low = some provenance ∧ provenance.Capped
  high : db.IndependentSide high

variable {score : Rat} {now : Instant} {db mid next : LedgerDb} {side : CorroborationSide}
  {promoted first second : List PromotedRow} {left right low high entity : MatchSide}
  {key other : LedgerKey} {row old new : LedgerRow}

/-! ## Sides and rows -/

theorem provenanceOf_of_liftKey (h : entity.liftKey? = some key) :
    db.provenanceOf entity = (db.rows.find? key).map (·.provenance) := by
  rw [MatchSide.liftKey?] at h
  rw [LedgerDb.provenanceOf]
  cases htype : entity.type <;> rw [htype] at h <;> cases h <;> rfl

/-- A row is on one side only. -/
theorem liftKey_injective (hleft : left.liftKey? = some key) (hright : right.liftKey? = some key) :
    left = right := by
  rw [MatchSide.liftKey?] at hleft hright
  cases left with
  | mk leftType leftId =>
      cases right with
      | mk rightType rightId => cases leftType <;> cases hleft <;> cases rightType <;> cases hright <;> rfl

theorem Raised.refl (score : Rat) (row : LedgerRow) : Raised score row row :=
  ⟨le_rfl, le_max_left _ _, fun h => absurd rfl h⟩

theorem Raised.trans {middle : LedgerRow} (hfirst : Raised score old middle)
    (hsecond : Raised score middle new) : Raised score old new where
  upward := hfirst.upward.trans hsecond.upward
  ceiling := hsecond.ceiling.trans (max_le hfirst.ceiling (le_max_right _ _))
  promotes hne := by
    by_cases hsame : middle.provenance = old.provenance
    · have h := hsecond.promotes (hsame ▸ hne)
      exact ⟨hsame ▸ h.1, h.2⟩
    · have h := hfirst.promotes hsame
      refine ⟨h.1, ?_⟩
      by_contra hother
      have hmiddle := (hsecond.promotes fun heq => hother (heq.trans h.2)).1
      rw [h.2] at hmiddle
      exact absurd hmiddle (by decide)

theorem lifted_raised (row : LedgerRow) : Raised score row (row.lifted score now) where
  upward := le_max_left _ _
  ceiling := le_rfl
  promotes hne := by
    rw [LedgerRow.lifted] at hne ⊢
    dsimp only at hne ⊢
    by_cases hcapped : row.provenance.Capped
    · exact ⟨hcapped, if_pos hcapped⟩
    · rw [if_neg hcapped] at hne
      exact absurd rfl hne

theorem lifted_key (row : LedgerRow) : (row.lifted score now).key = row.key := rfl

theorem lifted_provenance_independent (row : LedgerRow) :
    (row.lifted score now).provenance.Independent ↔
      row.provenance.Independent ∨ row.provenance.Capped := by
  rw [LedgerRow.lifted]
  dsimp only
  cases row.provenance <;> decide

/-! ## One lift -/

/-- A lift is of the row of its key only. -/
theorem Lifted.find?_rows (h : Lifted score now db key next promoted) (other : LedgerKey) :
    next.rows.find? other =
      if other = key then (db.rows.find? key).map (·.lifted score now)
      else db.rows.find? other := by
  cases h with
  | row row stored =>
      obtain rfl := Table.key_of_find? stored
      rw [Table.find?_put, lifted_key, stored, Option.map_some]
  | missing missing =>
      by_cases same : other = key
      · rw [if_pos same, same, missing, Option.map_none]
      · rw [if_neg same]

theorem Lifted.length_eq_one (h : Lifted score now db key next promoted)
    (stored : db.rows.find? key = some row) : promoted.length = 1 := by
  cases h with
  | row => rfl
  | missing missing => rw [stored] at missing; cases missing

theorem lifted_total (score : Rat) (now : Instant) (db : LedgerDb) (key : LedgerKey) :
    ∃ next promoted, Lifted score now db key next promoted := by
  cases hstored : db.rows.find? key with
  | none => exact ⟨_, _, .missing hstored⟩
  | some row => exact ⟨_, _, .row row hstored⟩

/-- Lifts of two rows can be exchanged. -/
theorem Lifted.comm (hfirst : Lifted score now db key mid first)
    (hsecond : Lifted score now mid other next second) (hne : other ≠ key) :
    ∃ between, Lifted score now db other between second ∧
      Lifted score now between key next first := by
  have hother : mid.rows.find? other = db.rows.find? other := by
    rw [hfirst.find?_rows, if_neg hne]
  cases hsecond with
  | missing missing => exact ⟨db, .missing (hother ▸ missing), hfirst⟩
  | row otherRow otherStored =>
      have hstored := hother ▸ otherStored
      have hkey := Table.key_of_find? hstored
      refine ⟨_, .row otherRow hstored, ?_⟩
      cases hfirst with
      | missing missing =>
          refine .missing ?_
          rw [Table.find?_put, lifted_key, hkey, if_neg hne.symm, missing]
      | row row stored =>
          have hrow := Table.key_of_find? stored
          have hkeys : (row.lifted score now).key ≠ (otherRow.lifted score now).key := by
            rw [lifted_key, lifted_key, hrow, hkey]
            exact hne.symm
          have hcomm := Table.put_comm db.rows hkeys
            (Table.mem_keys_iff.mpr ⟨row, by rw [lifted_key, hrow, stored]⟩)
            (Table.mem_keys_iff.mpr ⟨otherRow, by rw [lifted_key, hkey, hstored]⟩)
          rw [hcomm]
          refine Lifted.row row ?_
          rw [Table.find?_put, lifted_key, hkey, if_neg hne.symm, stored]

theorem liftsSide_total (score : Rat) (now : Instant) (db : LedgerDb) (side : CorroborationSide) :
    ∃ next promoted, LiftsSide score now db side next promoted := by
  by_cases hcounter : db.IndependentSide side.counter
  · cases hself : side.self.liftKey? with
    | none => exact ⟨_, _, .skip (.inl hself)⟩
    | some key =>
        obtain ⟨next, promoted, hlifted⟩ := lifted_total score now db key
        exact ⟨next, promoted, .lift key next promoted hself hcounter hlifted⟩
  · exact ⟨_, _, .skip (.inr hcounter)⟩

theorem LiftsSide.raised (h : LiftsSide score now db side next promoted)
    (hold : db.rows.find? key = some old) :
    ∃ new, next.rows.find? key = some new ∧ Raised score old new := by
  cases h with
  | skip => exact ⟨old, hold, .refl score old⟩
  | lift self _ _ _ _ lifted =>
      rw [lifted.find?_rows]
      by_cases same : key = self
      · subst same
        rw [if_pos rfl, hold, Option.map_some]
        exact ⟨_, rfl, lifted_raised old⟩
      · rw [if_neg same]
        exact ⟨old, hold, .refl score old⟩

/-- A row that gains is that of the lifted side, and the counter side vouched for it. -/
theorem LiftsSide.gated (h : LiftsSide score now db side next promoted)
    (hold : db.rows.find? key = some old) (hnew : next.rows.find? key = some new)
    (hgains : Gains old new) :
    side.self.liftKey? = some key ∧ db.IndependentSide side.counter := by
  have unchanged : new ≠ old := by
    rintro rfl
    exact hgains.elim (lt_irrefl _) fun hne => hne rfl
  cases h with
  | skip =>
      rw [hold] at hnew
      exact absurd (Option.some.inj hnew).symm unchanged
  | lift self _ _ hself hcounter lifted =>
      rw [lifted.find?_rows] at hnew
      by_cases same : key = self
      · exact ⟨same ▸ hself, hcounter⟩
      · rw [if_neg same, hold] at hnew
        exact absurd (Option.some.inj hnew).symm unchanged

/-- An independent side stays independent. -/
theorem LiftsSide.independent (h : LiftsSide score now db side next promoted)
    (hside : db.IndependentSide entity) (hkey : entity.liftKey? = some key) :
    next.IndependentSide entity := by
  obtain ⟨provenance, hprovenance, hindependent⟩ := hside
  rw [provenanceOf_of_liftKey hkey, Option.map_eq_some_iff] at hprovenance
  obtain ⟨old, hold, rfl⟩ := hprovenance
  obtain ⟨new, hnew, hraised⟩ := h.raised hold
  refine ⟨new.provenance, by rw [provenanceOf_of_liftKey hkey, hnew, Option.map_some], ?_⟩
  by_cases same : new.provenance = old.provenance
  · exact same ▸ hindependent
  · exact absurd (hraised.promotes same).1 hindependent.not_capped

/-- A side that the lift made independent was promoted by an independent side. -/
theorem LiftsSide.mixed (h : LiftsSide score now db ⟨left, right⟩ next promoted)
    (hright : right.liftKey? ≠ none) (hkey : entity.liftKey? = some key)
    (hbefore : ¬db.IndependentSide entity) (hafter : next.IndependentSide entity) :
    Mixed db left right := by
  obtain ⟨provenance, hprovenance, hindependent⟩ := hafter
  rw [provenanceOf_of_liftKey hkey, Option.map_eq_some_iff] at hprovenance
  obtain ⟨new, hnew, rfl⟩ := hprovenance
  cases h with
  | skip =>
      refine absurd ⟨new.provenance, ?_, hindependent⟩ hbefore
      rw [provenanceOf_of_liftKey hkey, hnew, Option.map_some]
  | lift self _ _ hself hcounter lifted =>
      rw [lifted.find?_rows] at hnew
      by_cases same : key = self
      · subst same
        rw [if_pos rfl, Option.map_eq_some_iff] at hnew
        obtain ⟨old, hold, rfl⟩ := hnew
        have hprovenance : ∀ {side}, side.liftKey? = some key →
            db.provenanceOf side = some old.provenance := by
          intro side hside
          rw [provenanceOf_of_liftKey hside, hold, Option.map_some]
        rcases (lifted_provenance_independent old).mp hindependent with hold' | hcapped
        · exact absurd ⟨_, hprovenance hkey, hold'⟩ hbefore
        · exact ⟨by rw [hself]; exact Option.some_ne_none _, hright,
            ⟨_, hprovenance hself, hcapped⟩, hcounter⟩
      · rw [if_neg same] at hnew
        refine absurd ⟨new.provenance, ?_, hindependent⟩ hbefore
        rw [provenanceOf_of_liftKey hkey, hnew, Option.map_some]

/-! ## Both sides -/

/-- Without a promotion of the first side, the second is lifted as it would be alone. -/
theorem LiftsSide.counter_iff (h : LiftsSide score now db ⟨left, right⟩ mid first)
    (hright : right.liftKey? ≠ none) (hkey : left.liftKey? = some key)
    (hmixed : ¬Mixed db left right) : mid.IndependentSide left ↔ db.IndependentSide left := by
  constructor
  · intro hafter
    by_contra hbefore
    exact hmixed (h.mixed hright hkey hbefore hafter)
  · exact fun hbefore => h.independent hbefore hkey

theorem LiftsSide.of_no_key (h : LiftsSide score now db side next promoted)
    (hself : side.self.liftKey? = none) : next = db ∧ promoted = [] := by
  cases h with
  | lift key _ _ hkey => rw [hself] at hkey; cases hkey
  | skip => exact ⟨rfl, rfl⟩

theorem LiftsSide.of_not_independent (h : LiftsSide score now db side next promoted)
    (hcounter : ¬db.IndependentSide side.counter) : next = db ∧ promoted = [] := by
  cases h with
  | lift _ _ _ _ hindependent => exact absurd hindependent hcounter
  | skip => exact ⟨rfl, rfl⟩

theorem LiftsSide.of_independent (h : LiftsSide score now db side next promoted)
    (hself : side.self.liftKey? = some key) (hcounter : db.IndependentSide side.counter) :
    Lifted score now db key next promoted := by
  cases h with
  | lift self _ _ hkey _ lifted => exact Option.some.inj (hself.symm.trans hkey) ▸ lifted
  | skip blocked =>
      rcases blocked with hnone | hnot
      · rw [hself] at hnone
        cases hnone
      · exact absurd hcounter hnot

/-- Without a promotion that vouches, the sides can be lifted in either order. -/
theorem LiftsSide.comm (hfirst : LiftsSide score now db ⟨left, right⟩ mid first)
    (hsecond : LiftsSide score now mid ⟨right, left⟩ next second) (hne : left ≠ right)
    (hleft : ¬Mixed db left right) (hright : ¬Mixed db right left) :
    ∃ between, LiftsSide score now db ⟨right, left⟩ between second ∧
      LiftsSide score now between ⟨left, right⟩ next first := by
  cases hkeyL : left.liftKey? with
  | none =>
      obtain ⟨rfl, rfl⟩ := hfirst.of_no_key hkeyL
      exact ⟨next, hsecond, .skip (.inl hkeyL)⟩
  | some keyL =>
      cases hkeyR : right.liftKey? with
      | none =>
          obtain ⟨rfl, rfl⟩ := hsecond.of_no_key hkeyR
          exact ⟨db, .skip (.inl hkeyR), hfirst⟩
      | some keyR =>
          have liftableL : left.liftKey? ≠ none := by rw [hkeyL]; exact Option.some_ne_none _
          have liftableR : right.liftKey? ≠ none := by rw [hkeyR]; exact Option.some_ne_none _
          have hiff := hfirst.counter_iff liftableR hkeyL hleft
          by_cases hindL : db.IndependentSide left
          · have hlifted := hsecond.of_independent hkeyR (hiff.mpr hindL)
            by_cases hindR : db.IndependentSide right
            · have hkeys : keyR ≠ keyL := fun same =>
                hne (liftKey_injective hkeyL (same ▸ hkeyR))
              obtain ⟨between, hR, hL⟩ :=
                (hfirst.of_independent hkeyL hindR).comm hlifted hkeys
              have hlift : LiftsSide score now db ⟨right, left⟩ between second :=
                .lift keyR between second hkeyR hindL hR
              exact ⟨between, hlift, .lift keyL next first hkeyL
                ((hlift.counter_iff liftableL hkeyR hright).mpr hindR) hL⟩
            · obtain ⟨rfl, rfl⟩ := hfirst.of_not_independent hindR
              exact ⟨next, hsecond, .skip (.inr
                (mt (hsecond.counter_iff liftableL hkeyR hright).mp hindR))⟩
          · obtain ⟨rfl, rfl⟩ := hsecond.of_not_independent (mt hiff.mp hindL)
            exact ⟨db, .skip (.inr hindL), hfirst⟩

/-! ## A capped side and an independent one -/

theorem row_of_provenance {provenance : Provenance} (hkey : entity.liftKey? = some key)
    (h : db.provenanceOf entity = some provenance) :
    ∃ row, db.rows.find? key = some row ∧ row.provenance = provenance := by
  rwa [provenanceOf_of_liftKey hkey, Option.map_eq_some_iff] at h

theorem LiftsSide.length_eq_one {provenance : Provenance}
    (h : LiftsSide score now db side next promoted) (hself : side.self.liftKey? = some key)
    (hcounter : db.IndependentSide side.counter)
    (hprovenance : db.provenanceOf side.self = some provenance) : promoted.length = 1 := by
  obtain ⟨row, hrow, -⟩ := row_of_provenance hself hprovenance
  exact (h.of_independent hself hcounter).length_eq_one hrow

/-- With the capped side on the left, the promoted row vouches for the one that promoted it. -/
theorem Mixed.length_eq_two (h : Mixed db low high)
    (hfirst : LiftsSide score now db ⟨low, high⟩ mid first)
    (hsecond : LiftsSide score now mid ⟨high, low⟩ next second) :
    (first ++ second).length = 2 := by
  obtain ⟨keyL, hkeyL⟩ := Option.ne_none_iff_exists'.mp h.lowLiftable
  obtain ⟨keyH, hkeyH⟩ := Option.ne_none_iff_exists'.mp h.highLiftable
  obtain ⟨provenance, hlow, hcapped⟩ := h.low
  obtain ⟨row, hrow, rfl⟩ := row_of_provenance hkeyL hlow
  have hlifted := hfirst.of_independent hkeyL h.high
  have hvouches : mid.IndependentSide low := by
    refine ⟨(row.lifted score now).provenance, ?_,
      (lifted_provenance_independent row).mpr (.inr hcapped)⟩
    rw [provenanceOf_of_liftKey hkeyL, hlifted.find?_rows, if_pos rfl, hrow]
    rfl
  obtain ⟨provenance, hhigh, -⟩ := hfirst.independent h.high hkeyH
  rw [List.length_append, hfirst.length_eq_one hkeyL h.high hlow,
    hsecond.length_eq_one hkeyH hvouches hhigh]

/-- With the capped side on the right, the independent one is left alone. -/
theorem Mixed.length_eq_one (h : Mixed db low high)
    (hfirst : LiftsSide score now db ⟨high, low⟩ mid first)
    (hsecond : LiftsSide score now mid ⟨low, high⟩ next second) :
    (first ++ second).length = 1 := by
  obtain ⟨keyL, hkeyL⟩ := Option.ne_none_iff_exists'.mp h.lowLiftable
  obtain ⟨provenance, hlow, hcapped⟩ := h.low
  have hnot : ¬db.IndependentSide low := by
    rintro ⟨other, hother, hindependent⟩
    rw [hlow] at hother
    exact absurd hcapped (Option.some.inj hother ▸ hindependent).not_capped
  obtain ⟨rfl, rfl⟩ := hfirst.of_not_independent hnot
  exact hsecond.length_eq_one hkeyL h.high hlow

/-! ## The lift of a match -/

theorem corroborationLaw_of_not_mixed
    (hrun : (applyCorroborationLift score now (corroborationSides left right)).runAlone ledgerStore
      db = .ok (next, promoted)) (hleft : ¬Mixed db left right) (hright : ¬Mixed db right left) :
    CorroborationLaw db next promoted left right score now := by
  obtain ⟨mid, first, second, hfirst, hsecond, rfl⟩ := applyCorroborationLift_alone.mp hrun
  constructor
  · intro key old hold
    obtain ⟨middle, hmiddle, hraised⟩ := hfirst.raised hold
    obtain ⟨new, hnew, hthen⟩ := hsecond.raised hmiddle
    exact ⟨new, hnew, hraised.trans hthen⟩
  · intro key old new hold hnew hgains
    obtain ⟨middle, hmiddle, -⟩ := hfirst.raised hold
    by_cases hgain : Gains old middle
    · exact .inl (hfirst.gated hold hmiddle hgain)
    · have hsame : Gains middle new := by
        rw [Gains, not_or, not_lt, not_not] at hgain
        exact hgains.imp (hgain.1.trans_lt ·) fun hne heq => hne (heq.trans hgain.2)
      obtain ⟨hself, hcounter⟩ := hsecond.gated hmiddle hnew hsame
      refine .inr ⟨hself, ?_⟩
      cases hkey : left.liftKey? with
      | none => exact (hfirst.of_no_key hkey).1 ▸ hcounter
      | some keyL =>
          exact (hfirst.counter_iff (by rw [hself]; exact Option.some_ne_none _) hkey hleft).mp
            hcounter
  · by_cases hne : left = right
    · subst hne
      exact ⟨_, hrun, .refl _⟩
    · obtain ⟨between, hR, hL⟩ := hfirst.comm hsecond hne hleft hright
      exact ⟨second ++ first, applyCorroborationLift_alone.mpr
        ⟨between, second, first, hR, hL, rfl⟩, List.perm_append_comm⟩

theorem not_mixed_of_corroborationLaw
    (hrun : (applyCorroborationLift score now (corroborationSides left right)).runAlone ledgerStore
      db = .ok (next, promoted)) (hlaw : CorroborationLaw db next promoted left right score now) :
    ¬Mixed db left right ∧ ¬Mixed db right left := by
  obtain ⟨swapped, hswapped, hperm⟩ := hlaw.symmetric
  obtain ⟨mid, first, second, hfirst, hsecond, rfl⟩ := applyCorroborationLift_alone.mp hrun
  obtain ⟨mid', first', second', hfirst', hsecond', rfl⟩ :=
    applyCorroborationLift_alone.mp hswapped
  have hlength := hperm.length_eq
  constructor
  · intro hmixed
    rw [hmixed.length_eq_one hfirst' hsecond', hmixed.length_eq_two hfirst hsecond] at hlength
    cases hlength
  · intro hmixed
    rw [hmixed.length_eq_two hfirst' hsecond', hmixed.length_eq_one hfirst hsecond] at hlength
    cases hlength

/-- The lift of a match goes through, and it keeps the law unless one side is of a capped
provenance and the other independent. -/
theorem corroboration_of_sides (db : LedgerDb) (left right : MatchSide) (score : Rat)
    (now : Instant) :
    (∃ next promoted,
      (applyCorroborationLift score now (corroborationSides left right)).runAlone ledgerStore db =
        .ok (next, promoted) ∧ CorroborationLaw db next promoted left right score now) ↔
      ¬Mixed db left right ∧ ¬Mixed db right left := by
  constructor
  · rintro ⟨next, promoted, hrun, hlaw⟩
    exact not_mixed_of_corroborationLaw hrun hlaw
  · rintro ⟨hleft, hright⟩
    obtain ⟨mid, first, hfirst⟩ := liftsSide_total score now db ⟨left, right⟩
    obtain ⟨next, second, hsecond⟩ := liftsSide_total score now mid ⟨right, left⟩
    have hrun := applyCorroborationLift_alone.mpr ⟨mid, first, second, hfirst, hsecond, rfl⟩
    exact ⟨next, first ++ second, hrun, corroborationLaw_of_not_mixed hrun hleft hright⟩

/-! ## An extracted bill and the same bill from an agent -/

theorem billAmount_inRange : (120 * 10 ^ 8 : Int).natAbs < 10 ^ 28 := by decide

def billObligation (id : String) (provenance : Provenance) (confidence : Rat) : LedgerRow where
  id := id
  columns := .obligation
    { type := "bill", counterpartyId := "cp_acme", amountDue := ⟨120 * 10 ^ 8, billAmount_inRange⟩
      currency := "USD", dueDate := 1767225600000, status := .due
      direction := some .payable, externalKey := some ("bill:" ++ id) }
  provenance := provenance
  confidence := confidence

def agentBill : MatchSide := ⟨.obligation, "obl_agent"⟩

def extractedBill : MatchSide := ⟨.obligation, "obl_extracted"⟩

def billPair : LedgerDb where
  rows := (Table.empty.put (billObligation "obl_agent" .agentContributed (2 / 5))).put
    (billObligation "obl_extracted" .extracted (3 / 5))

/-- The agent's bill vouches for the bill that has just promoted it. -/
theorem promoted_bill_vouches :
    ¬∃ next promoted,
      (applyCorroborationLift (17 / 20) 0 (corroborationSides agentBill extractedBill)).runAlone
        ledgerStore billPair = .ok (next, promoted) ∧
      CorroborationLaw billPair next promoted agentBill extractedBill (17 / 20) 0 := by
  rintro ⟨next, promoted, hrun, hlaw⟩
  have hraised : (next.rows.find? ⟨.obligations, "obl_extracted"⟩).map (·.confidence) =
      some (max (3 / 5) (min (17 / 20) CORROBORATION_CONFIDENCE_CEILING)) := by
    have hresult : ∃ db rows,
        (applyCorroborationLift (17 / 20) 0 (corroborationSides agentBill extractedBill)).runAlone
          ledgerStore billPair = .ok (db, rows) ∧
        (db.rows.find? ⟨.obligations, "obl_extracted"⟩).map (·.confidence) =
          some (max (3 / 5) (min (17 / 20) CORROBORATION_CONFIDENCE_CEILING)) := ⟨_, _, rfl, rfl⟩
    obtain ⟨db, rows, hother, hconfidence⟩ := hresult
    rw [hrun] at hother
    cases hother
    exact hconfidence
  obtain ⟨new, hnew, hconfidence⟩ := Option.map_eq_some_iff.mp hraised
  have hold : billPair.rows.find? ⟨.obligations, "obl_extracted"⟩ =
      some (billObligation "obl_extracted" .extracted (3 / 5)) := rfl
  have hgains : Gains (billObligation "obl_extracted" .extracted (3 / 5)) new := by
    rw [Gains, hconfidence]
    left
    norm_num [billObligation, CORROBORATION_CONFIDENCE_CEILING]
  rcases hlaw.gated _ _ _ hold hnew hgains with ⟨hkey, -⟩ | ⟨-, hindependent⟩
  · exact absurd hkey (by decide)
  · exact absurd hindependent (by decide)

end BrainCore.Ledger
