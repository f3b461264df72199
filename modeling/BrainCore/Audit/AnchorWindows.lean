import BrainCore.Audit.AnchorCoverage

/-!
# The windows of a backlog

What one window of `nextAnchorWindow` reaches, and what cycle after cycle does
with a fixed set of events, when every cycle covers the end of its window.
-/

namespace BrainCore.Audit

/-! ## One window -/

section Window

variable {covered : Option Int} {oldest now maxWindowMs : Int}

/-- The time lies after what is covered. -/
def AfterCovered (covered : Option Int) (time : Int) : Prop := covered.all (· < time) = true

instance decidableAfterCovered (covered : Option Int) (time : Int) :
    Decidable (AfterCovered covered time) := inferInstanceAs (Decidable (_ = true))

theorem AfterCovered.mono {time later : Int} (h : AfterCovered covered time) (hle : time ≤ later) :
    AfterCovered covered later := by
  cases covered with
  | none => rfl
  | some end_ =>
      have hlt : end_ < time := by simpa [AfterCovered] using h
      simpa [AfterCovered] using hlt.trans_le hle

/-- What a window does for the oldest event that waits. -/
structure WindowReaches (covered : Option Int) (oldest now maxWindowMs : Int)
    (window : AnchorWindow) : Prop where
  afterCovered : AfterCovered covered window.periodStart
  start : window.periodStart ≤ oldest
  oldest : oldest ≤ window.periodEnd
  now : window.periodEnd ≤ now
  length : window.periodEnd - window.periodStart ≤ maxWindowMs

/-- A window starts at the oldest event after what is covered. -/
theorem nextAnchorWindow_eq (h : AfterCovered covered oldest) :
    nextAnchorWindow covered oldest now maxWindowMs =
      if now - oldest > maxWindowMs then ⟨oldest, oldest + maxWindowMs⟩ else ⟨oldest, now⟩ := by
  cases covered with
  | none => simp only [nextAnchorWindow, max_self]
  | some end_ =>
      have hlt : end_ < oldest := by simpa [AfterCovered] using h
      have hstart : max (end_ + 1) oldest = oldest := max_eq_right hlt
      simp only [nextAnchorWindow, hstart]

theorem nextAnchorWindow_reaches (h : AfterCovered covered oldest) (hnow : oldest ≤ now)
    (hmax : 0 ≤ maxWindowMs) :
    WindowReaches covered oldest now maxWindowMs
      (nextAnchorWindow covered oldest now maxWindowMs) := by
  rw [nextAnchorWindow_eq h]
  split
  · rename_i hclamped
    constructor
    · exact h
    · exact le_refl oldest
    · show oldest ≤ oldest + maxWindowMs
      omega
    · show oldest + maxWindowMs ≤ now
      omega
    · show oldest + maxWindowMs - oldest ≤ maxWindowMs
      omega
  · rename_i hfits
    exact ⟨h, le_refl oldest, hnow, le_refl now, not_lt.mp hfits⟩

end Window

/-! ## Cycles -/

/-- The events of a tenant that nothing covers. -/
def unanchored (events : List LoggedEvent) (tenantId : String) (covered : Option Int) :
    List LoggedEvent :=
  events.filter fun event => event.tenantId = tenantId ∧ covered.all (· < event.createdAt)

/-- The windows of cycles at these times, each of which covers the end of its window. -/
def anchorCycles (events : List LoggedEvent) (tenantId : String) (maxWindowMs : Int) :
    Option Int → List Int → List AnchorWindow
  | _, [] => []
  | covered, now :: later =>
      match oldestUnanchored events tenantId covered with
      | none => []
      | some oldest =>
          let window := nextAnchorWindow covered oldest now maxWindowMs
          window :: anchorCycles events tenantId maxWindowMs (some window.periodEnd) later

/-- The window is listed with the event in it. -/
def AnchorWindow.lists (events : List LoggedEvent) (tenantId : String) (event : LoggedEvent)
    (window : AnchorWindow) : Bool :=
  event ∈ listEventsForAnchor events tenantId window.periodStart window.periodEnd

/-- No time lies in both windows. -/
def AnchorWindow.Apart (window other : AnchorWindow) : Prop :=
  ∀ time, ¬((window.periodStart ≤ time ∧ time ≤ window.periodEnd) ∧
    (other.periodStart ≤ time ∧ time ≤ other.periodEnd))

section Cycles

variable {events : List LoggedEvent} {tenantId : String} {maxWindowMs : Int}
  {covered : Option Int} {event : LoggedEvent}

theorem mem_unanchored : event ∈ unanchored events tenantId covered ↔
    event ∈ events ∧ event.tenantId = tenantId ∧ AfterCovered covered event.createdAt := by
  unfold unanchored AfterCovered
  rw [List.mem_filter, decide_eq_true_iff]

theorem oldestUnanchored_none (h : oldestUnanchored events tenantId covered = none) :
    unanchored events tenantId covered = [] := by
  unfold oldestUnanchored at h
  rw [List.min?_eq_none_iff] at h
  exact List.map_eq_nil_iff.mp h

/-- The oldest time is one of the events', and no later than the others. -/
theorem oldestUnanchored_some {oldest : Int}
    (h : oldestUnanchored events tenantId covered = some oldest) :
    (∃ event ∈ unanchored events tenantId covered, event.createdAt = oldest) ∧
      ∀ event ∈ unanchored events tenantId covered, oldest ≤ event.createdAt := by
  obtain ⟨hmem, hleast⟩ := List.min?_eq_some_iff.mp h
  exact ⟨List.mem_map.mp hmem, fun event hevent => hleast _ (List.mem_map_of_mem hevent)⟩

theorem lists_iff {window : AnchorWindow} (hevent : event ∈ events)
    (htenant : event.tenantId = tenantId) :
    window.lists events tenantId event = true ↔
      window.periodStart ≤ event.createdAt ∧ event.createdAt ≤ window.periodEnd := by
  unfold AnchorWindow.lists
  rw [decide_eq_true_iff, mem_listEventsForAnchor]
  exact ⟨fun h => h.2.2, fun h => ⟨hevent, htenant, h⟩⟩

/-- Once more is covered, the events that wait are those after it. -/
theorem unanchored_eq_filter {end_ : Int} (h : AfterCovered covered end_) :
    unanchored events tenantId (some end_) =
      (unanchored events tenantId covered).filter fun event => end_ < event.createdAt := by
  unfold unanchored
  rw [List.filter_filter]
  refine List.filter_congr fun event _ => ?_
  have hafter : end_ < event.createdAt → covered.all (· < event.createdAt) = true := by
    intro hlt
    cases covered with
    | none => rfl
    | some before =>
        have hbefore : before < end_ := by simpa [AfterCovered] using h
        simpa using hbefore.trans hlt
  by_cases hlt : end_ < event.createdAt
  · simp [hlt, hafter hlt]
  · simp [hlt]

/-- After a cycle fewer events wait. -/
theorem unanchored_lt {end_ : Int} (h : AfterCovered covered end_)
    (hreached : ∃ event ∈ unanchored events tenantId covered, event.createdAt ≤ end_) :
    (unanchored events tenantId (some end_)).length <
      (unanchored events tenantId covered).length := by
  obtain ⟨event, hevent, hend⟩ := hreached
  rw [unanchored_eq_filter h, List.length_filter_lt_length_iff_exists]
  exact ⟨event, hevent, by simpa using hend⟩

/-- What the windows of some cycles do for the events that wait. -/
structure CyclesCover (events : List LoggedEvent) (tenantId : String) (covered : Option Int)
    (times : List Int) (windows : List AnchorWindow) : Prop where
  after : ∀ window ∈ windows, AfterCovered covered window.periodStart
  apart : windows.Pairwise AnchorWindow.Apart
  /-- There are no more windows than events that wait. -/
  terminates : windows.length ≤ (unanchored events tenantId covered).length
  /-- With that many cycles every event is listed in one window. -/
  once : (unanchored events tenantId covered).length ≤ times.length →
    ∀ event ∈ unanchored events tenantId covered,
      (windows.filter (AnchorWindow.lists events tenantId event)).length = 1

theorem cyclesCover_nil {times : List Int} (h : times = [] ∨ unanchored events tenantId covered = []) :
    CyclesCover events tenantId covered times [] where
  after window hmem := absurd hmem List.not_mem_nil
  apart := List.Pairwise.nil
  terminates := Nat.zero_le _
  once hlength event hevent := by
    rcases h with rfl | hnone
    · have hpos := List.length_pos_of_mem hevent
      simp only [List.length_nil] at hlength
      omega
    · rw [hnone] at hevent
      exact absurd hevent List.not_mem_nil

/-- One more cycle in front: its window reaches the oldest event, and the later ones start after it. -/
theorem CyclesCover.cons {oldest now : Int} {times : List Int} {window : AnchorWindow}
    {windows : List AnchorWindow} (holdest : oldestUnanchored events tenantId covered = some oldest)
    (hwindow : WindowReaches covered oldest now maxWindowMs window)
    (h : CyclesCover events tenantId (some window.periodEnd) times windows) :
    CyclesCover events tenantId covered (now :: times) (window :: windows) := by
  obtain ⟨⟨first, hfirst, rfl⟩, hleast⟩ := oldestUnanchored_some holdest
  have hlater : ∀ other ∈ windows, window.periodEnd < other.periodStart := fun other hmem => by
    simpa [AfterCovered] using h.after other hmem
  have hend : AfterCovered covered window.periodEnd :=
    (mem_unanchored.mp hfirst).2.2.mono hwindow.oldest
  have hfewer := unanchored_lt hend ⟨first, hfirst, hwindow.oldest⟩
  constructor
  · rintro other hmem
    rcases List.mem_cons.mp hmem with rfl | hmem
    · exact hwindow.afterCovered
    · exact hend.mono (hlater other hmem).le
  · refine List.pairwise_cons.mpr ⟨fun other hmem time htimes => ?_, h.apart⟩
    have := hlater other hmem
    omega
  · have := h.terminates
    simp only [List.length_cons]
    omega
  · intro hlength event hevent
    obtain ⟨hmem, htenant, hafter⟩ := mem_unanchored.mp hevent
    by_cases hin : event.createdAt ≤ window.periodEnd
    · have hlists : window.lists events tenantId event = true :=
        (lists_iff hmem htenant).mpr ⟨hwindow.start.trans (hleast event hevent), hin⟩
      have hnone : windows.filter (AnchorWindow.lists events tenantId event) = [] := by
        rw [List.filter_eq_nil_iff]
        intro other hother hlisted
        have hstart := ((lists_iff hmem htenant).mp hlisted).1
        have hapart := hlater other hother
        omega
      rw [List.filter_cons_of_pos hlists, hnone, List.length_singleton]
    · have hnot : ¬window.lists events tenantId event = true :=
        fun hlisted => hin ((lists_iff hmem htenant).mp hlisted).2
      rw [List.filter_cons_of_neg hnot]
      refine h.once ?_ event (mem_unanchored.mpr ⟨hmem, htenant, ?_⟩)
      · simp only [List.length_cons] at hlength
        omega
      · simpa [AfterCovered] using hin

theorem anchorCycles_cover (hmax : 0 ≤ maxWindowMs) (times : List Int)
    (htimes : ∀ now ∈ times, ∀ event ∈ unanchored events tenantId covered, event.createdAt ≤ now) :
    CyclesCover events tenantId covered times
      (anchorCycles events tenantId maxWindowMs covered times) := by
  induction times generalizing covered with
  | nil => exact cyclesCover_nil (.inl rfl)
  | cons now later ih =>
      unfold anchorCycles
      split
      · rename_i hnone
        exact cyclesCover_nil (.inr (oldestUnanchored_none hnone))
      · rename_i oldest holdest
        obtain ⟨⟨first, hfirst, hfirst_time⟩, -⟩ := oldestUnanchored_some holdest
        have hafter : AfterCovered covered oldest := hfirst_time ▸ (mem_unanchored.mp hfirst).2.2
        have hnow : oldest ≤ now := hfirst_time ▸ htimes now List.mem_cons_self first hfirst
        have hreaches := nextAnchorWindow_reaches hafter hnow hmax
        refine CyclesCover.cons holdest hreaches (ih fun now hmem event hevent => ?_)
        rw [unanchored_eq_filter (hafter.mono hreaches.oldest)] at hevent
        exact htimes now (List.mem_cons_of_mem _ hmem) event (List.mem_filter.mp hevent).1

end Cycles

/-- A window reaches the oldest event that waits and stays in its bounds, and cycles at times no
event comes after end, with windows apart from one another that list every event once. -/
theorem anchor_windows_progress (maxWindowMs : Int) (hmax : 0 ≤ maxWindowMs) :
    (∀ covered oldest now, AfterCovered covered oldest → oldest ≤ now →
      WindowReaches covered oldest now maxWindowMs
        (nextAnchorWindow covered oldest now maxWindowMs)) ∧
    ∀ events tenantId covered times,
      (∀ now ∈ times, ∀ event ∈ unanchored events tenantId covered, event.createdAt ≤ now) →
      CyclesCover events tenantId covered times
        (anchorCycles events tenantId maxWindowMs covered times) :=
  ⟨fun _ _ _ hafter hnow => nextAnchorWindow_reaches hafter hnow hmax,
    fun _ _ _ times htimes => anchorCycles_cover hmax times htimes⟩

/-- Two events of a tenant, the second one longer after the first than a window is. -/
def dormantBacklog : List LoggedEvent :=
  [⟨"evt_1", "tnt", 1000, []⟩, ⟨"evt_2", "tnt", 1000 + 2 * MAX_ANCHOR_WINDOW_MS, []⟩]

theorem anchor_windows_progress_dormant :
    let now := 5 * MAX_ANCHOR_WINDOW_MS
    let windows := anchorCycles dormantBacklog "tnt" MAX_ANCHOR_WINDOW_MS (some 999) [now, now]
    windows.map AnchorWindow.periodStart = [1000, 1000 + 2 * MAX_ANCHOR_WINDOW_MS] ∧
      WindowReaches (some 999) 1000 now MAX_ANCHOR_WINDOW_MS
        (nextAnchorWindow (some 999) 1000 now MAX_ANCHOR_WINDOW_MS) ∧
      CyclesCover dormantBacklog "tnt" (some 999) [now, now] windows :=
  ⟨by decide, (anchor_windows_progress _ (by decide)).1 _ _ _ (by decide) (by decide),
    (anchor_windows_progress _ (by decide)).2 _ _ _ _ (by decide)⟩

end BrainCore.Audit
