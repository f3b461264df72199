import BrainCore.Shared.Ratelimit.HitCounting
import BrainCore.Shared.Ratelimit.SlidingWindowAgreement

/-!
# When every hit is counted

The members of the sorted set are hits that were recorded.  A count falls short
of the hits in the window in two ways: two of them have one member, or one of
them is not stored any more.
-/

namespace BrainCore.Shared.Ratelimit

open BrainCore.Foundation

/-! ## Members -/

/-- What a member is made of. -/
def Hit.stamp (hit : Hit) : Nat × Nat := (hit.time, hit.seq)

theorem digits_dash_inj {a b c d : List Char} (ha : IsDigits a) (hc : IsDigits c)
    (h : a ++ '-' :: b = c ++ '-' :: d) : a = c ∧ b = d := by
  induction a generalizing c with
  | nil =>
      cases c with
      | nil => exact ⟨rfl, by simpa using h⟩
      | cons x c =>
          obtain ⟨rfl, _⟩ := List.cons.inj h
          exact absurd (isDigits_cons.mp hc).1 (by decide)
  | cons x a ih =>
      cases c with
      | nil =>
          obtain ⟨rfl, _⟩ := List.cons.inj h
          exact absurd (isDigits_cons.mp ha).1 (by decide)
      | cons y c =>
          obtain ⟨rfl, htail⟩ := List.cons.inj h
          obtain ⟨rfl, rfl⟩ := ih (isDigits_cons.mp ha).2 (isDigits_cons.mp hc).2 htail
          exact ⟨rfl, rfl⟩

theorem toList_member (hit : Hit) :
    hit.member.toList = Nat.toDigits 10 hit.time ++ '-' :: Nat.toDigits 10 hit.seq := by
  simp [Hit.member, toString, Nat.repr]

/-- Two hits have one member when they were sent at one time under one number. -/
theorem member_eq_iff {a b : Hit} : a.member = b.member ↔ a.stamp = b.stamp := by
  constructor
  · intro h
    have hchars := congrArg String.toList h
    rw [toList_member, toList_member] at hchars
    obtain ⟨htime, hseq⟩ := digits_dash_inj (isDigits_toDigits _) (isDigits_toDigits _) hchars
    rw [Hit.stamp, Hit.stamp, ← natOf_toDigits a.time, htime, natOf_toDigits,
      ← natOf_toDigits a.seq, hseq, natOf_toDigits]
  · intro h
    obtain ⟨htime, hseq⟩ := Prod.mk.inj h
    rw [Hit.member, Hit.member, htime, hseq]

/-! ## Counting -/

/-- The values of a sublist are as many as the whole list exactly when the values of the list are
distinct and nothing is missing from the sublist. -/
theorem card_values_eq_length_iff {α β : Type} [DecidableEq β] {kept all : List α} {f : α → β}
    (sub : ∀ x ∈ kept, x ∈ all) :
    (kept.map f).toFinset.card = all.length ↔ (all.map f).Nodup ∧ ∀ x ∈ all, x ∈ kept := by
  have hsub : (kept.map f).toFinset ⊆ (all.map f).toFinset := by
    intro y hy
    obtain ⟨x, hx, rfl⟩ := List.mem_map.mp (List.mem_toFinset.mp hy)
    exact List.mem_toFinset.mpr (List.mem_map_of_mem (sub x hx))
  constructor
  · intro hcard
    have hle := Finset.card_le_card hsub
    have hlength : (all.map f).toFinset.card ≤ all.length := by
      simpa using List.toFinset_card_le (all.map f)
    have hnodup : (all.map f).Nodup := by
      rw [← Multiset.coe_nodup, ← Multiset.toFinset_card_eq_card_iff_nodup, Multiset.coe_card,
        List.length_map]
      exact le_antisymm hlength (hcard ▸ hle)
    have hsame : (kept.map f).toFinset = (all.map f).toFinset :=
      Finset.eq_of_subset_of_card_le hsub (hcard.symm ▸ hlength)
    refine ⟨hnodup, fun x hx => ?_⟩
    have hvalue : f x ∈ (kept.map f).toFinset := by
      rw [hsame]
      exact List.mem_toFinset.mpr (List.mem_map_of_mem hx)
    obtain ⟨y, hy, heq⟩ := List.mem_map.mp (List.mem_toFinset.mp hvalue)
    rwa [← List.inj_on_of_nodup_map hnodup (sub y hy) hx heq]
  · rintro ⟨hnodup, hall⟩
    have hsame : (kept.map f).toFinset = (all.map f).toFinset := by
      refine hsub.antisymm fun y hy => ?_
      obtain ⟨x, hx, rfl⟩ := List.mem_map.mp (List.mem_toFinset.mp hy)
      exact List.mem_toFinset.mpr (List.mem_map_of_mem (hall x hx))
    rw [hsame, List.toFinset_card_of_nodup hnodup, List.length_map]

/-! ## What is stored -/

section Window

variable (windowMs : Int)

/-- The hits after the cutoff of a window that ends at `now`. -/
def inWindow (now : Nat) (recorded : List Recorded) : List Recorded :=
  recorded.filter fun r => (now : Int) - windowMs < r.hit.time

/-- The hits that are stored while Redis' clock shows `clock`: each transaction prunes what its own
window leaves out, and the key is gone when nothing ran for the length of a window. -/
def stored : Nat → List Recorded → List Recorded
  | _, [] => []
  | clock, last :: earlier =>
      if windowMs ≤ 0 ∨ (last.ranAt : Int) + windowMs < clock then []
      else inWindow windowMs last.hit.time (last :: stored last.ranAt earlier)

theorem mem_of_mem_stored {windowMs : Int} {clock : Nat} {recorded : List Recorded} {r : Recorded}
    (h : r ∈ stored windowMs clock recorded) : r ∈ recorded := by
  induction recorded generalizing clock with
  | nil => cases h
  | cons last earlier ih =>
      rw [stored] at h
      split at h
      · cases h
      · rcases List.mem_cons.mp (List.mem_filter.mp h).1 with rfl | hr
        · exact List.mem_cons_self
        · exact List.mem_cons_of_mem _ (ih hr)

end Window

/-- The sorted set holds the hits that are stored, each under its member. -/
def Holds (opts : SlidingWindowOptions) (key : String) (redis : Redis)
    (recorded : List Recorded) : Prop :=
  ∀ clock member time, ((redis.alive clock) key).members.time? member = some time ↔
    ∃ r ∈ stored opts.windowMs clock recorded, r.hit.member = member ∧ r.hit.time = time

section Transaction

variable {opts : SlidingWindowOptions} {key : String} {redis : Redis} {recorded : List Recorded}
  {clock : Nat} {hit : Hit}

/-- The members once the hit is added and the window is pruned. -/
def windowMembers (opts : SlidingWindowOptions) (redis : Redis) (key : String) (clock : Nat)
    (hit : Hit) : TimedSet String :=
  (((redis.alive clock) key).members.record hit.member hit.time).prune (hit.time - opts.windowMs)

theorem sets_pruned (redis : Redis) (key : String) (hit : Hit) (cutoff : Int) :
    ((redis.zadd key hit.time hit.member).zremrangebyscore key cutoff key).members =
      ((redis key).members.record hit.member hit.time).prune cutoff := by
  have hadded : ((redis.zadd key hit.time hit.member) key).members =
      (redis key).members.record hit.member hit.time := by
    have h := congrFun (Redis.sets_store redis key
      { redis key with members := (redis key).members.record hit.member hit.time }) key
    rwa [Function.update_self] at h
  have h := congrFun (Redis.sets_zremrangebyscore (redis.zadd key hit.time hit.member) key cutoff) key
  rw [activeEvents, Function.update_self] at h
  rw [← hadded]
  exact h

/-- The count of a hit is the number of members in its window. -/
theorem hitTransaction_count :
    (hitTransaction opts redis key clock hit).1 = (windowMembers opts redis key clock hit).card := by
  unfold hitTransaction Redis.zcard windowMembers
  dsimp only
  rw [sets_pruned]

theorem time?_windowMembers (holds : Holds opts key redis recorded) {member : String} {time : Nat} :
    (windowMembers opts redis key clock hit).time? member = some time ↔
      ∃ r ∈ inWindow opts.windowMs hit.time (⟨hit, clock⟩ :: stored opts.windowMs clock recorded),
        r.hit.member = member ∧ r.hit.time = time := by
  rw [windowMembers, TimedSet.time?_prune, TimedSet.time?_record]
  constructor
  · rintro ⟨htime, hafter⟩
    split at htime
    · rename_i hmember
      obtain rfl := Option.some.inj htime
      refine ⟨⟨hit, clock⟩, List.mem_filter.mpr ⟨List.mem_cons_self, ?_⟩, hmember.symm, rfl⟩
      simpa using hafter
    · obtain ⟨r, hr, hmember, rfl⟩ := (holds clock member time).mp htime
      refine ⟨r, List.mem_filter.mpr ⟨List.mem_cons_of_mem _ hr, ?_⟩, hmember, rfl⟩
      simpa using hafter
  · rintro ⟨r, hr, rfl, rfl⟩
    obtain ⟨hr, hafter⟩ := List.mem_filter.mp hr
    refine ⟨?_, by simpa using hafter⟩
    by_cases hmember : r.hit.member = hit.member
    · have hstamp := member_eq_iff.mp hmember
      rw [if_pos hmember, (Prod.mk.inj hstamp).1]
    · rw [if_neg hmember]
      rcases List.mem_cons.mp hr with rfl | hr
      · exact absurd rfl hmember
      · exact (holds clock r.hit.member r.hit.time).mpr ⟨r, hr, rfl, rfl⟩

/-- The members in a window are the members of the hits stored in it. -/
theorem card_windowMembers (holds : Holds opts key redis recorded) :
    (windowMembers opts redis key clock hit).card =
      ((inWindow opts.windowMs hit.time (⟨hit, clock⟩ :: stored opts.windowMs clock recorded)).map
        fun r => r.hit.member).toFinset.card := by
  rw [TimedSet.card_eq_members]
  congr 1
  ext member
  rw [List.mem_toFinset, List.mem_toFinset, TimedSet.mem_members_iff, List.mem_map]
  simp only [time?_windowMembers holds]
  constructor
  · rintro ⟨time, r, hr, hmember, _⟩
    exact ⟨r, hr, hmember⟩
  · rintro ⟨r, hr, hmember⟩
    exact ⟨_, r, hr, hmember, rfl⟩

/-- A key that was never hit holds nothing. -/
theorem holds_empty : Holds opts key (fun _ => {}) [] := by
  intro clock member time
  simp [Redis.alive, stored]

/-- The transaction of a hit leaves the stored hits in the set. -/
theorem holds_hitTransaction (holds : Holds opts key redis recorded) :
    Holds opts key (hitTransaction opts redis key clock hit).2 (⟨hit, clock⟩ :: recorded) := by
  intro later member time
  unfold hitTransaction
  dsimp only
  by_cases hwindow : opts.windowMs ≤ 0
  · rw [stored, if_pos (.inl hwindow)]
    simp [Redis.pexpire, hwindow, Redis.alive]
  · set pruned := ((redis.alive clock).zadd key hit.time hit.member).zremrangebyscore key
      (hit.time - opts.windowMs) with hpruned
    have hmembers : (pruned key).members = windowMembers opts redis key clock hit := by
      rw [hpruned, sets_pruned, windowMembers]
    have hown : (windowMembers opts redis key clock hit).time? hit.member = some hit.time :=
      (time?_windowMembers holds).mpr ⟨⟨hit, clock⟩,
        List.mem_filter.mpr ⟨List.mem_cons_self, by simp; omega⟩, rfl, rfl⟩
    have hcard : (windowMembers opts redis key clock hit).card ≠ 0 := by
      intro hzero
      have hnil : (windowMembers opts redis key clock hit).rows = [] :=
        List.length_eq_zero_iff.mp hzero
      rw [TimedSet.time?_eq_some, hnil] at hown
      cases hown
    have hkey : (pruned.pexpire key clock opts.windowMs) key =
        ⟨windowMembers opts redis key clock hit, some (clock + opts.windowMs)⟩ := by
      rw [Redis.pexpire, if_neg hwindow, Redis.store, Function.update_self]
      dsimp only
      rw [hmembers, if_neg hcard]
    rw [stored]
    by_cases hexpired : (clock : Int) + opts.windowMs < later
    · rw [if_pos (.inr hexpired), Redis.alive, hkey]
      simp [hexpired]
    · rw [if_neg (not_or.mpr ⟨hwindow, hexpired⟩), Redis.alive, hkey]
      simp only [hexpired, if_false]
      exact time?_windowMembers holds

end Transaction

/-! ## The decisions of a run -/

section Runs

variable (opts : SlidingWindowOptions) (key : String)

/-- The decision was taken on the number of hits recorded in its window. -/
def Exact (counted : Counted) : Prop :=
  counted.decision.count = (inWindow opts.windowMs counted.now counted.recorded).length

def AllExact (s : Processes) : Prop := ∀ counted ∈ s.decisions, Exact opts counted

/-- No two hits of the window have one time and one number, and each is still stored. -/
structure Apart (clock : Nat) (hit : Hit) (recorded : List Recorded) : Prop where
  distinct : ((inWindow opts.windowMs hit.time (⟨hit, clock⟩ :: recorded)).map
    fun r => r.hit.stamp).Nodup
  kept : ∀ r ∈ inWindow opts.windowMs hit.time recorded, r ∈ stored opts.windowMs clock recorded

/-- The condition on a step: the hits in the window are apart, and Redis answers. -/
def CountsAll (s : Processes) : HitLabel → Prop
  | .finish hit clock .answered => Apart opts clock hit s.recorded
  | .finish hit clock (.unread ran) =>
      inWindow opts.windowMs hit.time (s.recordedAfter hit clock (.unread ran)) = []
  | _ => True

instance decidableApart (clock : Nat) (hit : Hit) (recorded : List Recorded) :
    Decidable (Apart opts clock hit recorded) :=
  decidable_of_iff
    (((inWindow opts.windowMs hit.time (⟨hit, clock⟩ :: recorded)).map fun r => r.hit.stamp).Nodup ∧
      ∀ r ∈ inWindow opts.windowMs hit.time recorded, r ∈ stored opts.windowMs clock recorded)
    ⟨fun h => ⟨h.1, h.2⟩, fun h => ⟨h.1, h.2⟩⟩

instance decidableCountsAll (s : Processes) (label : HitLabel) : Decidable (CountsAll opts s label) :=
  match label with
  | .finish hit clock .answered => decidableApart opts clock hit s.recorded
  | .finish _ _ (.unread _) => List.instDecidableEqNil _
  | .finish _ _ (.threw _) | .send _ _ | .elsewhere _ | .restart _ => .isTrue trivial

variable {opts key} {s next : Processes}

theorem decide_count (count : Nat) : (opts.decide count).count = count := by
  unfold SlidingWindowOptions.decide
  split
  · rename_i hzero
    exact hzero.symm
  · rfl

/-- The count of Redis is the number of hits in the window exactly when these are apart. -/
theorem count_eq_iff {redis : Redis} {recorded : List Recorded} {clock : Nat} {hit : Hit}
    (holds : Holds opts key redis recorded) :
    (hitTransaction opts redis key clock hit).1 =
      (inWindow opts.windowMs hit.time (⟨hit, clock⟩ :: recorded)).length ↔
    Apart opts clock hit recorded := by
  have hsub : ∀ r ∈ inWindow opts.windowMs hit.time
      (⟨hit, clock⟩ :: stored opts.windowMs clock recorded),
      r ∈ inWindow opts.windowMs hit.time (⟨hit, clock⟩ :: recorded) := by
    intro r hr
    obtain ⟨hr, hafter⟩ := List.mem_filter.mp hr
    refine List.mem_filter.mpr ⟨?_, hafter⟩
    rcases List.mem_cons.mp hr with rfl | hr
    · exact List.mem_cons_self
    · exact List.mem_cons_of_mem _ (mem_of_mem_stored hr)
  have hmembers (rs : List Recorded) :
      (rs.map fun r => r.hit.member).Nodup ↔ (rs.map fun r => r.hit.stamp).Nodup := by
    rw [List.Nodup, List.Nodup, List.pairwise_map, List.pairwise_map]
    simp only [ne_eq, member_eq_iff]
  rw [hitTransaction_count, card_windowMembers holds, card_values_eq_length_iff hsub, hmembers]
  constructor
  · rintro ⟨hdistinct, hall⟩
    refine ⟨hdistinct, fun r hr => ?_⟩
    obtain ⟨hrecorded, hafter⟩ := List.mem_filter.mp hr
    have hmem := hall r (List.mem_filter.mpr ⟨List.mem_cons_of_mem _ hrecorded, hafter⟩)
    rcases List.mem_cons.mp (List.mem_filter.mp hmem).1 with rfl | hstored
    · -- the new hit is recorded once more, under its own stamp
      have hcons : inWindow opts.windowMs hit.time (⟨hit, clock⟩ :: recorded) =
          ⟨hit, clock⟩ :: inWindow opts.windowMs hit.time recorded := List.filter_cons_of_pos hafter
      rw [hcons, List.map_cons, List.nodup_cons] at hdistinct
      exact absurd (List.mem_map.mpr ⟨_, hr, rfl⟩) hdistinct.1
    · exact hstored
  · rintro ⟨hdistinct, hkept⟩
    refine ⟨hdistinct, fun r hr => ?_⟩
    obtain ⟨hr, hafter⟩ := List.mem_filter.mp hr
    refine List.mem_filter.mpr ⟨?_, hafter⟩
    rcases List.mem_cons.mp hr with rfl | hr
    · exact List.mem_cons_self
    · exact List.mem_cons_of_mem _ (hkept r (List.mem_filter.mpr ⟨hr, hafter⟩))

/-- A finished hit found its process in flight. -/
theorem step_finish {hit : Hit} {clock : Nat} {ending : Ending}
    (h : s.step opts key (.finish hit clock ending) = some next) :
    next = s.finish opts key hit clock ending := by
  rw [Processes.step] at h
  split at h
  · exact (Option.some.inj h).symm
  · cases h

/-- The set on Redis holds what is recorded and stored, after every step. -/
theorem holds_step {label : HitLabel} (holds : Holds opts key s.redis s.recorded)
    (h : (hitMachine opts key).step s label = some next) : Holds opts key next.redis next.recorded := by
  cases label with
  | send process now =>
      cases h
      exact holds
  | elsewhere process =>
      cases h
      exact holds
  | restart process =>
      cases h
      exact holds
  | finish hit clock ending =>
      rw [step_finish h, Processes.finish]
      dsimp only [Processes.recordedAfter]
      cases ending.ran with
      | true => exact holds_hitTransaction holds
      | false => exact holds

/-- A step takes at most one decision, and keeps the earlier ones. -/
theorem decisions_step {label : HitLabel} (h : (hitMachine opts key).step s label = some next) :
    next.decisions = s.decisions ∨ ∃ hit clock ending count,
      label = .finish hit clock ending ∧ s.countRead opts key hit clock ending = some count ∧
        next.decisions =
          ⟨hit.time, s.recordedAfter hit clock ending, opts.decide count⟩ :: s.decisions := by
  cases label with
  | send process now =>
      cases h
      exact .inl rfl
  | elsewhere process =>
      cases h
      exact .inl rfl
  | restart process =>
      cases h
      exact .inl rfl
  | finish hit clock ending =>
      rw [step_finish h, Processes.finish]
      cases hcount : s.countRead opts key hit clock ending with
      | none => exact .inl rfl
      | some count => exact .inr ⟨hit, clock, ending, count, rfl, hcount, rfl⟩

/-- A step takes an exact decision exactly when it counts all. -/
theorem allExact_step {label : HitLabel} (holds : Holds opts key s.redis s.recorded)
    (exact : AllExact opts s) (h : (hitMachine opts key).step s label = some next) :
    AllExact opts next ↔ CountsAll opts s label := by
  have hnew {hit : Hit} {clock : Nat} {ending : Ending} {count : Nat}
      (hdecisions : next.decisions =
        ⟨hit.time, s.recordedAfter hit clock ending, opts.decide count⟩ :: s.decisions) :
      AllExact opts next ↔ count =
        (inWindow opts.windowMs hit.time (s.recordedAfter hit clock ending)).length := by
    constructor
    · intro hall
      have := hall _ (hdecisions ▸ List.mem_cons_self)
      rwa [Exact, decide_count] at this
    · intro hcount counted hmem
      rw [hdecisions] at hmem
      rcases List.mem_cons.mp hmem with rfl | hmem
      · rwa [Exact, decide_count]
      · exact exact counted hmem
  obtain hsame | ⟨hit, clock, ending, count, rfl, hcount, hdecisions⟩ := decisions_step h
  · have hall : AllExact opts next := fun counted hmem => exact counted (hsame ▸ hmem)
    refine iff_of_true hall ?_
    cases label with
    | send process now => trivial
    | elsewhere process => trivial
    | restart process => trivial
    | finish hit clock ending =>
        rw [step_finish h, Processes.finish] at hsame
        cases ending with
        | threw ran => trivial
        | answered => exact absurd hsame (List.cons_ne_self _ _)
        | unread ran => exact absurd hsame (List.cons_ne_self _ _)
  · rw [hnew hdecisions]
    cases ending with
    | answered =>
        obtain rfl := Option.some.inj hcount
        exact count_eq_iff holds
    | unread ran =>
        obtain rfl := Option.some.inj hcount
        rw [CountsAll, eq_comm, List.length_eq_zero_iff]
    | threw ran => cases hcount

/-- Every decision of a run of any number of processes is taken on the number of hits recorded in
its window, exactly when at every decision the hits in the window have different times or numbers
and are all stored, and Redis answers. -/
theorem decisions_exact_iff {labels : List HitLabel} {final : Processes}
    (hrun : (hitMachine opts key).run {} labels = some final) :
    AllExact opts final ↔ (hitMachine opts key).Meets (CountsAll opts) {} labels := by
  refine (hitMachine opts key).last_iff_meets
    (fun s _ _ h hstep => holds_step (s := s) h hstep) (fun s label next _ hstep hnext => ?_)
    (fun s label next h hexact hstep => allExact_step h hexact hstep) holds_empty ?_ hrun
  · intro counted hmem
    obtain hsame | ⟨_, _, _, _, _, _, hdecisions⟩ := decisions_step hstep
    · exact hnext counted (hsame ▸ hmem)
    · exact hnext counted (hdecisions ▸ List.mem_cons_of_mem _ hmem)
  · intro counted hmem
    cases hmem

end Runs

/-! ## Two processes in one millisecond -/

def perMinute : SlidingWindowOptions := ⟨60, 1⟩

/-- Each process sends its first hit when its clock shows `first` and `second`. -/
def firstHits (first second : Nat) : List HitLabel :=
  [.send 0 first, .send 1 second, .finish ⟨0, first, 1⟩ 1000 .answered,
    .finish ⟨1, second, 1⟩ 1001 .answered]

/-- The counts of the decisions, and how many hits were in their windows. -/
def countsOf (opts : SlidingWindowOptions) (s : Processes) : List (Nat × Nat) :=
  s.decisions.map fun counted => (counted.decision.count,
    (inWindow opts.windowMs counted.now counted.recorded).length)

theorem exact_of_countsOf {opts : SlidingWindowOptions} {s : Processes} :
    AllExact opts s ↔ ∀ counts ∈ countsOf opts s, counts.1 = counts.2 := by
  simp [AllExact, Exact, countsOf]

theorem first_hits_apart : ∃ final,
    (hitMachine perMinute "annotate").run {} (firstHits 5000 5001) = some final ∧
      AllExact perMinute final := by
  have hcheck : (hitMachine perMinute "annotate").check
      (fun s label => decide (CountsAll perMinute s label)) {} (firstHits 5000 5001) = true := by
    decide
  have hmeets := ((hitMachine perMinute "annotate").meets_of_check hcheck).mono
    (hitMachine perMinute "annotate") fun _ _ h => of_decide_eq_true h
  exact ⟨_, rfl, (decisions_exact_iff rfl).mpr hmeets⟩

/-- Two processes whose first hits fall on one millisecond are counted as one. -/
theorem first_hits_collide : ∃ final,
    (hitMachine perMinute "annotate").run {} (firstHits 5000 5000) = some final ∧
      ¬AllExact perMinute final := by
  have hcounts : ((hitMachine perMinute "annotate").run {} (firstHits 5000 5000)).map
      (countsOf perMinute) = some [(1, 2), (1, 1)] := by decide
  obtain ⟨final, hrun, hfinal⟩ := Option.map_eq_some_iff.mp hcounts
  refine ⟨final, hrun, fun h => ?_⟩
  rw [exact_of_countsOf, hfinal] at h
  exact absurd (h (1, 2) (by decide)) (by decide)

end BrainCore.Shared.Ratelimit
