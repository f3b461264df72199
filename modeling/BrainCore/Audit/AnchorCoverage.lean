import BrainCore.Audit.Anchors

/-!
# What is covered is anchored

Windows tell what is covered, and roots what is anchored.  The two agree as
long as no event, window or status comes too late.
-/

namespace BrainCore.Audit

open BrainCore.Foundation

namespace AnchorWorld

/-- No anchor of the tenant reaches the time of the event. -/
def Uncovered (s : AnchorWorld) (event : LoggedEvent) : Prop :=
  ∀ anchor ∈ s.anchors, anchor.live → anchor.tenantId = event.tenantId →
    anchor.periodEnd < event.createdAt

def windowOf (s : AnchorWorld) (anchor : AuditAnchorRow) : List LoggedEvent :=
  listEventsForAnchor s.events anchor.tenantId anchor.periodStart anchor.periodEnd

/-- The leaves are the events in the window, and all events up to its end that nothing covers. -/
structure Fits (s : AnchorWorld) (anchor : AuditAnchorRow) : Prop where
  window : s.windowOf anchor = anchor.leaves
  leaves : ∀ event ∈ s.events, event.tenantId = anchor.tenantId →
    (event ∈ anchor.leaves ↔ event.createdAt ≤ anchor.periodEnd ∧ s.Uncovered event)

/-- No other anchor of the tenant reaches one of the leaves. -/
def Newest (s : AnchorWorld) (anchor : AuditAnchorRow) : Prop :=
  ∀ event ∈ anchor.leaves, ∀ other ∈ s.anchors, other.live → other.tenantId = anchor.tenantId →
    other.id ≠ anchor.id → other.periodEnd < event.createdAt

/-- The event is a leaf of one anchor alone, and its proof verifies against the root of that. -/
def Anchored (keccak256 : Buffer → Buffer) (s : AnchorWorld) (event : LoggedEvent) : Prop :=
  ∃ anchor, (s.anchors.filter fun anchor => anchor.live ∧ event ∈ anchor.leaves) = [anchor] ∧
    ∃ proof, inclusionProof keccak256 s.events s.anchors event.tenantId event.id =
        some (event, proof) ∧
      proof.merkleRoot = some anchor.merkleRoot ∧
      verifyProof keccak256 anchor.merkleRoot event.eventHash proof.merkleProof = true

/-- What is covered is anchored. -/
def CoveredAnchored (keccak256 : Buffer → Buffer) (s : AnchorWorld) : Prop :=
  ∀ event ∈ s.events, ∀ covered, coveredTo s.anchors event.tenantId = some covered →
    event.createdAt ≤ covered → s.Anchored keccak256 event

structure Invariant (keccak256 : Buffer → Buffer) (s : AnchorWorld) : Prop where
  anchorIds : (s.anchors.map AuditAnchorRow.id).Nodup
  eventIds : (s.events.map LoggedEvent.id).Nodup
  root : ∀ anchor ∈ s.anchors,
    anchor.merkleRoot = (buildTree keccak256 (anchor.leaves.map LoggedEvent.eventHash)).root
  window : ∀ anchor ∈ s.anchors, anchor.live → s.windowOf anchor = anchor.leaves
  once : ∀ anchor ∈ s.anchors, ∀ other ∈ s.anchors, anchor.live → other.live →
    ∀ event ∈ anchor.leaves, event ∈ other.leaves → anchor = other
  covered : ∀ event ∈ s.events, ¬s.Uncovered event →
    ∃ anchor ∈ s.anchors, anchor.live ∧ event ∈ anchor.leaves

end AnchorWorld

/-! ## Queries -/

theorem mem_listEventsForAnchor {events : List LoggedEvent} {tenantId : String}
    {periodStart periodEnd : Int} {event : LoggedEvent} :
    event ∈ listEventsForAnchor events tenantId periodStart periodEnd ↔
      event ∈ events ∧ event.tenantId = tenantId ∧ periodStart ≤ event.createdAt ∧
        event.createdAt ≤ periodEnd := by
  unfold listEventsForAnchor
  rw [List.mem_insertionSort, List.mem_filter, decide_eq_true_iff]

/-- An event outside of a window does not change it. -/
theorem listEventsForAnchor_concat {events : List LoggedEvent} {tenantId : String}
    {periodStart periodEnd : Int} {event : LoggedEvent}
    (h : event.tenantId = tenantId → periodEnd < event.createdAt) :
    listEventsForAnchor (events ++ [event]) tenantId periodStart periodEnd =
      listEventsForAnchor events tenantId periodStart periodEnd := by
  have hnone : [event].filter (fun event => decide (event.tenantId = tenantId ∧
      periodStart ≤ event.createdAt ∧ event.createdAt ≤ periodEnd)) = [] := by
    rw [List.filter_eq_nil_iff]
    intro other hmem
    obtain rfl := List.mem_singleton.mp hmem
    rw [decide_eq_true_iff]
    rintro ⟨htenant, -, hend⟩
    exact absurd (h htenant) (not_lt.mpr hend)
  unfold listEventsForAnchor
  rw [List.filter_append, hnone, List.append_nil]

namespace AnchorWorld

variable {keccak256 : Buffer → Buffer} {s : AnchorWorld} {anchor : AuditAnchorRow}
  {event : LoggedEvent}

theorem mem_windowOf : event ∈ s.windowOf anchor ↔
    event ∈ s.events ∧ event.tenantId = anchor.tenantId ∧ anchor.periodStart ≤ event.createdAt ∧
      event.createdAt ≤ anchor.periodEnd := mem_listEventsForAnchor

theorem not_uncovered_of_coveredTo {covered : Int}
    (hcovered : coveredTo s.anchors event.tenantId = some covered)
    (htime : event.createdAt ≤ covered) : ¬s.Uncovered event := by
  intro huncovered
  have hmem := List.max?_mem hcovered
  obtain ⟨anchor, hanchor, rfl⟩ := List.mem_map.mp hmem
  obtain ⟨hmem, hkeep⟩ := List.mem_filter.mp hanchor
  obtain ⟨htenant, hlive⟩ := of_decide_eq_true hkeep
  exact absurd (huncovered anchor hmem hlive htenant) (not_lt.mpr htime)

/-! ## The invariant is enough -/

/-- The windows that hold an event are those of the anchors that have it as a leaf. -/
theorem Invariant.mem_leaves_iff (h : Invariant keccak256 s) (hevent : event ∈ s.events)
    (hanchor : anchor ∈ s.anchors) (hlive : anchor.live) :
    event ∈ anchor.leaves ↔ anchor.tenantId = event.tenantId ∧
      anchor.periodStart ≤ event.createdAt ∧ event.createdAt ≤ anchor.periodEnd := by
  rw [← h.window anchor hanchor hlive, mem_windowOf]
  constructor
  · rintro ⟨-, htenant, htimes⟩
    exact ⟨htenant.symm, htimes⟩
  · rintro ⟨htenant, htimes⟩
    exact ⟨hevent, htenant.symm, htimes⟩

theorem Invariant.only (h : Invariant keccak256 s) (hanchor : anchor ∈ s.anchors)
    (hlive : anchor.live) (hleaf : event ∈ anchor.leaves) :
    (s.anchors.filter fun anchor => anchor.live ∧ event ∈ anchor.leaves) = [anchor] := by
  have hnodup : s.anchors.Nodup := h.anchorIds.of_map _
  refine List.perm_singleton.mp ((List.perm_ext_iff_of_nodup (hnodup.filter _) ?_).mpr fun other => ?_)
  · exact List.nodup_singleton anchor
  · rw [List.mem_filter, decide_eq_true_iff, List.mem_singleton]
    constructor
    · rintro ⟨hother, hother_live, hother_leaf⟩
      exact h.once other hother anchor hanchor hother_live hlive event hother_leaf hleaf
    · rintro rfl
      exact ⟨hanchor, hlive, hleaf⟩

theorem Invariant.findAnchorForEvent (h : Invariant keccak256 s) (hevent : event ∈ s.events)
    (hanchor : anchor ∈ s.anchors) (hlive : anchor.live) (hleaf : event ∈ anchor.leaves) :
    findAnchorForEvent s.anchors event.tenantId event.createdAt = some anchor := by
  unfold Audit.findAnchorForEvent
  have hsame : (s.anchors.filter fun anchor => anchor.tenantId = event.tenantId ∧
      anchor.periodStart ≤ event.createdAt ∧ event.createdAt ≤ anchor.periodEnd ∧ anchor.live) =
        s.anchors.filter fun anchor => anchor.live ∧ event ∈ anchor.leaves := by
    apply List.filter_congr
    intro other hother
    rw [decide_eq_decide]
    constructor
    · rintro ⟨htenant, hstart, hend, hother_live⟩
      exact ⟨hother_live, (h.mem_leaves_iff hevent hother hother_live).mpr ⟨htenant, hstart, hend⟩⟩
    · rintro ⟨hother_live, hother_leaf⟩
      obtain ⟨htenant, hstart, hend⟩ := (h.mem_leaves_iff hevent hother hother_live).mp hother_leaf
      exact ⟨htenant, hstart, hend, hother_live⟩
  rw [hsame, h.only hanchor hlive hleaf]
  rfl

theorem eq_of_id (hids : (s.events.map LoggedEvent.id).Nodup) {other : LoggedEvent}
    (hevent : event ∈ s.events) (hother : other ∈ s.events) (hid : other.id = event.id) :
    other = event := List.inj_on_of_nodup_map hids hother hevent hid

/-- The proof of a leaf is against the root that is stored. -/
theorem Invariant.proofAgainst (h : Invariant keccak256 s) (hevent : event ∈ s.events)
    (hanchor : anchor ∈ s.anchors) (hlive : anchor.live) (hleaf : event ∈ anchor.leaves) :
    (proofAgainst keccak256 s.events event anchor).merkleRoot = some anchor.merkleRoot ∧
      verifyProof keccak256 anchor.merkleRoot event.eventHash
        (proofAgainst keccak256 s.events event anchor).merkleProof = true := by
  have hwindow : listEventsForAnchor s.events anchor.tenantId anchor.periodStart anchor.periodEnd =
      anchor.leaves := h.window anchor hanchor hlive
  unfold Audit.proofAgainst
  dsimp only
  rw [hwindow, h.root anchor hanchor]
  cases hindex : anchor.leaves.findIdx? fun e => decide (e.id = event.id) with
  | none =>
      have hnone := List.findIdx?_eq_none_iff.mp hindex event hleaf
      simp at hnone
  | some index =>
      obtain ⟨hlt, hid, -⟩ := List.findIdx?_eq_some_iff_getElem.mp hindex
      have hmem : anchor.leaves[index] ∈ s.events := by
        have hwindowed : anchor.leaves[index] ∈ s.windowOf anchor := by
          rw [h.window anchor hanchor hlive]
          exact List.getElem_mem hlt
        exact (mem_windowOf.mp hwindowed).1
      have hsame : anchor.leaves[index] = event :=
        eq_of_id h.eventIds hevent hmem (of_decide_eq_true hid)
      refine ⟨rfl, verifyProof_makeProof keccak256 ?_⟩
      rw [List.getElem?_map, List.getElem?_eq_getElem hlt, hsame]
      rfl

theorem Invariant.coveredAnchored (h : Invariant keccak256 s) : s.CoveredAnchored keccak256 := by
  intro event hevent covered hcovered htime
  obtain ⟨anchor, hanchor, hlive, hleaf⟩ :=
    h.covered event hevent (not_uncovered_of_coveredTo hcovered htime)
  refine ⟨anchor, h.only hanchor hlive hleaf, Audit.proofAgainst keccak256 s.events event anchor, ?_,
    h.proofAgainst hevent hanchor hlive hleaf⟩
  have hfind : (s.events.find? fun other =>
      other.tenantId = event.tenantId ∧ other.id = event.id) = some event := by
    cases hfound : s.events.find? fun other =>
        decide (other.tenantId = event.tenantId ∧ other.id = event.id) with
    | none =>
        have hnone := List.find?_eq_none.mp hfound event hevent
        simp at hnone
    | some other =>
        have hother : other.tenantId = event.tenantId ∧ other.id = event.id := by
          simpa using List.find?_some hfound
        rw [eq_of_id h.eventIds hevent (List.mem_of_find?_eq_some hfound) hother.2]
  unfold inclusionProof
  rw [hfind, Option.map_some, h.findAnchorForEvent hevent hanchor hlive hleaf]

/-! ## What a step keeps -/

/-- The invariant depends on the log and the anchors alone. -/
theorem Invariant.of_same {next : AnchorWorld} (h : Invariant keccak256 s)
    (hevents : next.events = s.events) (hanchors : next.anchors = s.anchors) :
    Invariant keccak256 next := by
  obtain ⟨events, anchors, emits, publishers⟩ := next
  obtain rfl : events = s.events := hevents
  obtain rfl : anchors = s.anchors := hanchors
  exact ⟨h.anchorIds, h.eventIds, h.root, h.window, h.once, h.covered⟩

theorem Invariant.log (h : Invariant keccak256 s)
    (hintime : s.clashes event = false → s.Uncovered event) : Invariant keccak256 (s.log event) := by
  unfold AnchorWorld.log
  split
  · exact h
  · rename_i hfresh
    have huncovered := hintime (Bool.eq_false_iff.mpr hfresh)
    have hwindow : ∀ anchor ∈ s.anchors, anchor.live →
        ({ s with events := s.events ++ [event] } : AnchorWorld).windowOf anchor =
          s.windowOf anchor := by
      intro anchor hanchor hlive
      exact listEventsForAnchor_concat fun htenant => huncovered anchor hanchor hlive htenant.symm
    constructor
    · exact h.anchorIds
    · rw [List.map_append, List.nodup_append]
      refine ⟨h.eventIds, List.nodup_singleton _, ?_⟩
      rintro id hid id' hid' rfl
      obtain ⟨other, hother, heq⟩ := List.mem_map.mp hid
      obtain rfl := List.mem_singleton.mp hid'
      refine hfresh (List.any_eq_true.mpr ⟨other, hother, ?_⟩)
      exact decide_eq_true (.inl heq)
    · exact h.root
    · intro anchor hanchor hlive
      rw [hwindow anchor hanchor hlive]
      exact h.window anchor hanchor hlive
    · exact h.once
    · intro other hother hcovered
      rcases List.mem_append.mp hother with hother | hother
      · exact h.covered other hother hcovered
      · obtain rfl := List.mem_singleton.mp hother
        exact absurd huncovered hcovered

/-- A leaf of an anchor that fits is a leaf of no other. -/
theorem Invariant.fits_apart (h : Invariant keccak256 s) (hfits : s.Fits anchor)
    {other : AuditAnchorRow} (hother : other ∈ s.anchors) (hlive : other.live)
    (hleaf : event ∈ anchor.leaves) : event ∉ other.leaves := by
  intro hother_leaf
  have hwindowed : event ∈ s.windowOf anchor := by
    rw [hfits.window]
    exact hleaf
  obtain ⟨hevent, htenant, -⟩ := mem_windowOf.mp hwindowed
  obtain ⟨hother_tenant, -, hend⟩ := (h.mem_leaves_iff hevent hother hlive).mp hother_leaf
  have huncovered := ((hfits.leaves event hevent htenant).mp hleaf).2
  exact absurd (huncovered other hother hlive hother_tenant) (not_lt.mpr hend)

/-- An event that an anchor that fits reaches is a leaf of it, if of no other. -/
theorem Invariant.fits_reaches (h : Invariant keccak256 s) (hfits : s.Fits anchor)
    (hevent : event ∈ s.events) (htenant : anchor.tenantId = event.tenantId)
    (hend : event.createdAt ≤ anchor.periodEnd) :
    event ∈ anchor.leaves ∨ ∃ other ∈ s.anchors, other.live ∧ event ∈ other.leaves := by
  by_cases huncovered : s.Uncovered event
  · exact .inl ((hfits.leaves event hevent htenant.symm).mpr ⟨hend, huncovered⟩)
  · exact .inr (h.covered event hevent huncovered)

theorem Invariant.insert {row : AuditAnchorRow} (h : Invariant keccak256 s) (hfits : s.Fits row)
    (hid : ∀ anchor ∈ s.anchors, anchor.id ≠ row.id) (hlive : row.live)
    (hroot : row.merkleRoot =
      (buildTree keccak256 (row.leaves.map LoggedEvent.eventHash)).root) :
    Invariant keccak256 { s with anchors := s.anchors ++ [row] } := by
  have hcases : ∀ anchor ∈ s.anchors ++ [row], anchor ∈ s.anchors ∨ anchor = row := by
    intro anchor hmem
    rcases List.mem_append.mp hmem with hmem | hmem
    · exact .inl hmem
    · exact .inr (List.mem_singleton.mp hmem)
  have hold : ∀ anchor ∈ s.anchors, anchor ∈ s.anchors ++ [row] := fun _ =>
    List.mem_append_left _
  have hnew : row ∈ s.anchors ++ [row] := List.mem_append_right _ List.mem_cons_self
  constructor
  · rw [List.map_append, List.nodup_append]
    refine ⟨h.anchorIds, List.nodup_singleton _, ?_⟩
    rintro id hmem id' hmem' rfl
    obtain ⟨anchor, hanchor, heq⟩ := List.mem_map.mp hmem
    obtain rfl := List.mem_singleton.mp hmem'
    exact hid anchor hanchor heq
  · exact h.eventIds
  · intro anchor hanchor
    rcases hcases anchor hanchor with hanchor | rfl
    · exact h.root anchor hanchor
    · exact hroot
  · intro anchor hanchor hanchor_live
    rcases hcases anchor hanchor with hanchor | rfl
    · exact h.window anchor hanchor hanchor_live
    · exact hfits.window
  · intro anchor hanchor other hother hanchor_live hother_live event hleaf hother_leaf
    rcases hcases anchor hanchor with hanchor_old | hanchor_new
    · rcases hcases other hother with hother_old | hother_new
      · exact h.once anchor hanchor_old other hother_old hanchor_live hother_live event hleaf
          hother_leaf
      · rw [hother_new] at hother_leaf
        exact absurd hleaf (h.fits_apart hfits hanchor_old hanchor_live hother_leaf)
    · rcases hcases other hother with hother_old | hother_new
      · rw [hanchor_new] at hleaf
        exact absurd hother_leaf (h.fits_apart hfits hother_old hother_live hleaf)
      · rw [hanchor_new, hother_new]
  · intro event hevent hcovered
    unfold Uncovered at hcovered
    push Not at hcovered
    obtain ⟨anchor, hanchor, hanchor_live, htenant, hend⟩ := hcovered
    rcases hcases anchor hanchor with hanchor | rfl
    · have hold_covered : ¬s.Uncovered event := fun huncovered =>
        absurd (huncovered anchor hanchor hanchor_live htenant) (not_lt.mpr hend)
      obtain ⟨other, hother, hother_live, hleaf⟩ := h.covered event hevent hold_covered
      exact ⟨other, hold other hother, hother_live, hleaf⟩
    · rcases h.fits_reaches hfits hevent htenant hend with hleaf | ⟨other, hother, hother_live, hleaf⟩
      · exact ⟨anchor, hnew, hlive, hleaf⟩
      · exact ⟨other, hold other hother, hother_live, hleaf⟩

/-- An update of what became of an anchor on chain. -/
structure SameSeal (anchor other : AuditAnchorRow) : Prop where
  id : anchor.id = other.id
  tenantId : anchor.tenantId = other.tenantId
  merkleRoot : anchor.merkleRoot = other.merkleRoot
  periodStart : anchor.periodStart = other.periodStart
  periodEnd : anchor.periodEnd = other.periodEnd
  leaves : anchor.leaves = other.leaves

/-- A status that is raised has to fit, and one that is dropped to be the newest. -/
theorem Invariant.update {id : String} {update : AuditAnchorRow → AuditAnchorRow}
    (h : Invariant keccak256 s) (hsame : ∀ anchor, SameSeal (update anchor) anchor)
    (hraise : ∀ anchor ∈ s.anchors, anchor.id = id → (update anchor).live → ¬anchor.live →
      s.Fits anchor)
    (hdrop : ∀ anchor ∈ s.anchors, anchor.id = id → anchor.live → ¬(update anchor).live →
      s.Newest anchor) :
    Invariant keccak256 { s with anchors := updateAnchor s.anchors id update } := by
  generalize hg : (fun anchor : AuditAnchorRow =>
    if anchor.id = id then update anchor else anchor) = g
  have hseal : ∀ anchor, SameSeal (g anchor) anchor := by
    intro anchor
    rw [← hg]
    dsimp only
    split
    · exact hsame anchor
    · exact ⟨rfl, rfl, rfl, rfl, rfl, rfl⟩
  have hraised : ∀ anchor ∈ s.anchors, (g anchor).live → ¬anchor.live →
      anchor.id = id ∧ s.Fits anchor := by
    intro anchor hanchor hlive hdead
    rw [← hg] at hlive
    dsimp only at hlive
    split at hlive
    · exact ⟨‹_›, hraise anchor hanchor ‹_› hlive hdead⟩
    · exact absurd hlive hdead
  have hdropped : ∀ anchor ∈ s.anchors, anchor.live → ¬(g anchor).live →
      anchor.id = id ∧ s.Newest anchor := by
    intro anchor hanchor hlive hdead
    rw [← hg] at hdead
    dsimp only at hdead
    split at hdead
    · exact ⟨‹_›, hdrop anchor hanchor ‹_› hlive hdead⟩
    · exact absurd hlive hdead
  have hmem : ∀ row ∈ s.anchors.map g, ∃ anchor ∈ s.anchors, g anchor = row := fun _ hrow =>
    List.mem_map.mp hrow
  have hby_id : ∀ anchor ∈ s.anchors, ∀ other ∈ s.anchors, anchor.id = other.id →
      anchor = other := fun anchor hanchor other hother hid =>
    List.inj_on_of_nodup_map h.anchorIds hanchor hother hid
  have hanchors : updateAnchor s.anchors id update = s.anchors.map g := by
    rw [← hg]
    rfl
  rw [hanchors]
  constructor
  · rw [List.map_map]
    have hids : AuditAnchorRow.id ∘ g = AuditAnchorRow.id := funext fun anchor => (hseal anchor).id
    rw [hids]
    exact h.anchorIds
  · exact h.eventIds
  · intro row hrow
    obtain ⟨anchor, hanchor, rfl⟩ := hmem row hrow
    rw [(hseal anchor).merkleRoot, (hseal anchor).leaves]
    exact h.root anchor hanchor
  · intro row hrow hlive
    obtain ⟨anchor, hanchor, rfl⟩ := hmem row hrow
    unfold windowOf
    rw [(hseal anchor).tenantId, (hseal anchor).periodStart, (hseal anchor).periodEnd,
      (hseal anchor).leaves]
    by_cases hbefore : anchor.live
    · exact h.window anchor hanchor hbefore
    · exact (hraised anchor hanchor hlive hbefore).2.window
  · intro row hrow other_row hother_row hlive hother_live event hleaf hother_leaf
    obtain ⟨anchor, hanchor, rfl⟩ := hmem row hrow
    obtain ⟨other, hother, rfl⟩ := hmem other_row hother_row
    rw [(hseal anchor).leaves] at hleaf
    rw [(hseal other).leaves] at hother_leaf
    by_cases hbefore : anchor.live
    · by_cases hother_before : other.live
      · rw [h.once anchor hanchor other hother hbefore hother_before event hleaf hother_leaf]
      · have hfits := (hraised other hother hother_live hother_before).2
        exact absurd hleaf (h.fits_apart hfits hanchor hbefore hother_leaf)
    · obtain ⟨hid, hfits⟩ := hraised anchor hanchor hlive hbefore
      by_cases hother_before : other.live
      · exact absurd hother_leaf (h.fits_apart hfits hother hother_before hleaf)
      · have hother_id := (hraised other hother hother_live hother_before).1
        rw [hby_id anchor hanchor other hother (hid.trans hother_id.symm)]
  · intro event hevent hcovered
    unfold Uncovered at hcovered
    push Not at hcovered
    obtain ⟨row, hrow, hlive, htenant, hend⟩ := hcovered
    obtain ⟨anchor, hanchor, rfl⟩ := hmem row hrow
    rw [(hseal anchor).tenantId] at htenant
    rw [(hseal anchor).periodEnd] at hend
    -- an anchor that still counts has the event: the one there was, or the one that is raised
    have hholder : ∃ other ∈ s.anchors, (g other).live ∧ event ∈ other.leaves := by
      by_cases hbefore : anchor.live
      · have hreached : ¬s.Uncovered event := fun huncovered =>
          absurd (huncovered anchor hanchor hbefore htenant) (not_lt.mpr hend)
        obtain ⟨other, hother, hother_before, hleaf⟩ := h.covered event hevent hreached
        by_cases hother_live : (g other).live
        · exact ⟨other, hother, hother_live, hleaf⟩
        · have hnewest := (hdropped other hother hother_before hother_live).2
          have hother_tenant := ((h.mem_leaves_iff hevent hother hother_before).mp hleaf).1
          refine absurd (hnewest event hleaf anchor hanchor hbefore
            (htenant.trans hother_tenant.symm) fun hid => hother_live ?_) (not_lt.mpr hend)
          rw [← hby_id anchor hanchor other hother hid]
          exact hlive
      · obtain ⟨hid, hfits⟩ := hraised anchor hanchor hlive hbefore
        rcases h.fits_reaches hfits hevent htenant hend with
          hleaf | ⟨other, hother, hother_before, hleaf⟩
        · exact ⟨anchor, hanchor, hlive, hleaf⟩
        · refine ⟨other, hother, ?_, hleaf⟩
          by_contra hother_live
          have hother_id := (hdropped other hother hother_before hother_live).1
          rw [hby_id other hother anchor hanchor (hother_id.trans hid.symm)] at hother_before
          exact hbefore hother_before
    obtain ⟨other, hother, hother_live, hleaf⟩ := hholder
    refine ⟨g other, List.mem_map_of_mem hother, hother_live, ?_⟩
    rw [(hseal other).leaves]
    exact hleaf

/-! ## Runs -/

/-- What has to hold of an anchor whose broadcast ends: one that counts again fits, and one that
is reverted is the newest. -/
def OutcomeFits (s : AnchorWorld) (anchor : AuditAnchorRow) : BroadcastStatus → Prop
  | .confirmed => ¬anchor.live → s.Fits anchor
  | .alreadyAnchored => ¬anchor.live → s.Fits anchor
  | .reverted => anchor.live → s.Newest anchor
  | .unresolved => True

/-- Nothing comes too late: an event commits before its time is covered, an anchor is inserted
when it fits, and a broadcast ends when its outcome does. -/
def InTime (keccak256 : Buffer → Buffer) (s : AnchorWorld) : AnchorLabel → Prop
  | .commitEmit tenantId => ∀ event, s.emits tenantId = some event → s.clashes event = false →
      s.Uncovered event
  | .createAnchor i id => ∀ tenantId window events row,
      s.publishers i = .listed tenantId window events →
      createPendingAnchor keccak256 s.anchors id tenantId window events = .inserted row → s.Fits row
  | .broadcast i result => ∀ row, s.publishers i = .broadcasting row → row.terminal = false →
      ∀ anchor ∈ s.anchors, anchor.id = row.id → s.OutcomeFits anchor result.status
  | _ => True

theorem createPendingAnchor_inserted {anchors : List AuditAnchorRow} {id tenantId : String}
    {window : AnchorWindow} {events : List LoggedEvent} {row : AuditAnchorRow}
    (h : createPendingAnchor keccak256 anchors id tenantId window events = .inserted row) :
    (∀ anchor ∈ anchors, anchor.id ≠ row.id) ∧ row.live ∧
      row.merkleRoot = (buildTree keccak256 (row.leaves.map LoggedEvent.eventHash)).root := by
  unfold createPendingAnchor at h
  split at h
  · cases h
  · dsimp only at h
    split at h
    · cases h
    · split at h
      · cases h
      · rename_i hfresh
        cases h
        refine ⟨fun anchor hanchor hid => hfresh ?_, rfl, rfl⟩
        exact List.any_eq_true.mpr ⟨anchor, hanchor, decide_eq_true hid⟩

theorem Invariant.publish {row : AuditAnchorRow} {result : BroadcastResult}
    (h : Invariant keccak256 s)
    (hfits : row.terminal = false → ∀ anchor ∈ s.anchors, anchor.id = row.id →
      s.OutcomeFits anchor result.status) :
    Invariant keccak256 { s with anchors := publishPendingAnchor s.anchors row result } := by
  unfold publishPendingAnchor
  split
  · exact h
  · rename_i hterminal
    have hfits := hfits (Bool.eq_false_iff.mpr hterminal)
    have hconfirm : (∀ anchor ∈ s.anchors, anchor.id = row.id → ¬anchor.live → s.Fits anchor) →
        Invariant keccak256
          { s with anchors := updateAnchor s.anchors row.id (setAnchorTxHash result) } :=
      fun hraise => h.update (fun _ => ⟨rfl, rfl, rfl, rfl, rfl, rfl⟩)
        (fun anchor hanchor hid _ hdead => hraise anchor hanchor hid hdead)
        (fun _ _ _ _ hdead => absurd rfl hdead)
    cases hstatus : result.status with
    | unresolved => exact h
    | confirmed =>
        rw [hstatus] at hfits
        exact hconfirm hfits
    | alreadyAnchored =>
        rw [hstatus] at hfits
        exact hconfirm hfits
    | reverted =>
        rw [hstatus] at hfits
        exact h.update (fun _ => ⟨rfl, rfl, rfl, rfl, rfl, rfl⟩)
          (fun _ _ _ hlive _ => nomatch hlive)
          (fun anchor hanchor hid hlive _ => hfits anchor hanchor hid hlive)

theorem Invariant.step {label : AnchorLabel} {next : AnchorWorld} (h : Invariant keccak256 s)
    (hintime : InTime keccak256 s label) (hstep : s.step keccak256 label = some next) :
    Invariant keccak256 next := by
  cases label with
  | stamp event =>
      unfold AnchorWorld.step at hstep
      dsimp only at hstep
      split at hstep
      · cases hstep
        exact h.of_same rfl rfl
      · cases hstep
  | commitEmit tenantId =>
      unfold AnchorWorld.step at hstep
      dsimp only at hstep
      split at hstep
      · cases hstep
      · rename_i event hemit
        cases hstep
        exact (h.log (hintime event hemit)).of_same rfl rfl
  | abortEmit tenantId =>
      cases hstep
      exact h.of_same rfl rfl
  | readCoverage i tenantId now =>
      unfold AnchorWorld.step at hstep
      dsimp only at hstep
      split at hstep
      · cases hstep
        exact h.of_same rfl rfl
      · cases hstep
  | listEvents i =>
      unfold AnchorWorld.step at hstep
      dsimp only at hstep
      split at hstep
      · cases hstep
        exact h.of_same rfl rfl
      · cases hstep
  | createAnchor i id =>
      unfold AnchorWorld.step at hstep
      dsimp only at hstep
      split at hstep
      · rename_i tenantId window events hlisted
        split at hstep
        · cases hstep
          exact h.of_same rfl rfl
        · cases hstep
          exact h.of_same rfl rfl
        · cases hstep
          exact h.of_same rfl rfl
        · rename_i row hinserted
          cases hstep
          obtain ⟨hid, hlive, hroot⟩ := createPendingAnchor_inserted hinserted
          have hfits := hintime tenantId window events row hlisted hinserted
          exact (h.insert hfits hid hlive hroot).of_same rfl rfl
      · cases hstep
  | readAnchor i id =>
      unfold AnchorWorld.step at hstep
      dsimp only at hstep
      split at hstep
      · cases hstep
        exact h.of_same rfl rfl
      · cases hstep
  | broadcast i result =>
      unfold AnchorWorld.step at hstep
      dsimp only at hstep
      split at hstep
      · rename_i row hrow
        cases hstep
        exact (h.publish (hintime row hrow)).of_same rfl rfl
      · cases hstep
  | crash i =>
      cases hstep
      exact h.of_same rfl rfl

theorem invariant_empty : Invariant keccak256 {} :=
  ⟨.nil, .nil, nofun, nofun, nofun, nofun⟩

/-- An event that is logged, anchored and confirmed. -/
def anchoredInTime : List AnchorLabel :=
  [.stamp ⟨"evt_1", "tnt_a", 10, [1]⟩, .commitEmit "tnt_a", .readCoverage 0 "tnt_a" 30,
    .listEvents 0, .createAnchor 0 "anchor_1", .broadcast 0 ⟨[7], 1, .confirmed, none⟩]

/-- An event is stamped, a publisher anchors a window that reaches its time, and it commits. -/
def committedTooLate : List AnchorLabel :=
  [.stamp ⟨"evt_1", "tnt_a", 10, [1]⟩, .commitEmit "tnt_a", .stamp ⟨"evt_2", "tnt_a", 20, [2]⟩,
    .readCoverage 0 "tnt_a" 30, .listEvents 0, .createAnchor 0 "anchor_1", .commitEmit "tnt_a"]

end AnchorWorld

end BrainCore.Audit
