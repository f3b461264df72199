import BrainCore.Foundation.SlidingWindows
import BrainCore.Shared.Ratelimit.SlidingWindowAgreement

/-!
# What a bucket lets through

A bucket of the limiter is a sliding window over the hits recorded in it: a hit
with an id of its own fits when both windows let it through.
-/

namespace BrainCore.Shared.Ratelimit

open BrainCore.Foundation

/-- The events of a bucket after hits with ids of their own, newest first. -/
def bucketOf (hits : List (String × Nat)) : TimedSet String :=
  hits.foldr (fun hit set => set.record hit.1 hit.2) TimedSet.empty

theorem bucketOf_rows {hits : List (String × Nat)} (distinct : (hits.map Prod.fst).Nodup) :
    (bucketOf hits).rows = hits.reverse := by
  induction hits with
  | nil => rfl
  | cons hit hits ih =>
      obtain ⟨hfresh, hrest⟩ := List.nodup_cons.mp distinct
      have hrows := ih hrest
      have hmissing : hit.1 ∉ (bucketOf hits).rows.map Prod.fst := by
        rw [hrows, List.map_reverse, List.mem_reverse]
        exact hfresh
      rw [List.reverse_cons, ← hrows]
      exact Table.put_rows_of_not_mem hmissing

/-- The hits that are counted in a bucket. -/
theorem card_prune_bucketOf {hits : List (String × Nat)} (distinct : (hits.map Prod.fst).Nodup)
    (cutoff : Int) :
    ((bucketOf hits).prune cutoff).card = hits.countP fun hit => cutoff < hit.2 := by
  have hrows : ((bucketOf hits).prune cutoff).rows =
      hits.reverse.filter fun hit => !decide ((hit.2 : Int) ≤ cutoff) := by
    rw [← bucketOf_rows distinct]
    rfl
  rw [TimedSet.card, hrows, List.filter_reverse, List.length_reverse, ← List.countP_eq_length_filter]
  apply List.countP_congr
  intro hit _
  simp

section Fits

variable {buckets : Buckets} {timed : TimedHit} {windowMs : Nat}

/-- One bucket of a hit. -/
theorem bucket_fits_iff {bucket : String} {limit : Nat} {hits : List (String × Nat)}
    (htouches : timed.hit.Touches bucket) (hwindow : timed.hit.windowMs = windowMs)
    (holds : buckets bucket = bucketOf hits) (distinct : (hits.map Prod.fst).Nodup)
    (admitted : Admitted windowMs limit (hits.map Prod.snd))
    (before : ∀ hit ∈ hits, hit.2 ≤ timed.now) :
    ((pruned buckets timed bucket).card + 1 : Nat) ≤ (limit : Int) ↔
      Admitted windowMs limit (timed.now :: hits.map Prod.snd) := by
  have hcount : (pruned buckets timed bucket).card =
      (hits.map Prod.snd).countP fun hit => timed.now < hit + windowMs := by
    rw [pruned_apply, if_pos htouches, holds, card_prune_bucketOf distinct, List.countP_map]
    apply List.countP_congr
    intro hit _
    rw [TimedHit.cutoff, hwindow]
    simp only [decide_eq_true_eq, Function.comp_apply]
    omega
  rw [hcount, Int.ofNat_le]
  constructor
  · intro hle
    refine ⟨admitted, fun time htime => ?_, hle⟩
    obtain ⟨hit, hmem, rfl⟩ := List.mem_map.mp htime
    exact before hit hmem
  · exact fun h => h.2.2

/-- The limiter decides by the windows of the key and of the tenant. -/
theorem fits_iff_admitted {keyLimit tenantLimit : Nat} {keyHits tenantHits : List (String × Nat)}
    (hwindow : timed.hit.windowMs = windowMs)
    (hkeyLimit : timed.hit.policy.keyLimit = keyLimit)
    (htenantLimit : timed.hit.policy.tenantLimit = tenantLimit)
    (hkey : buckets timed.hit.keyBucket = bucketOf keyHits)
    (htenant : buckets timed.hit.tenantBucket = bucketOf tenantHits)
    (keyDistinct : (keyHits.map Prod.fst).Nodup) (tenantDistinct : (tenantHits.map Prod.fst).Nodup)
    (keyAdmitted : Admitted windowMs keyLimit (keyHits.map Prod.snd))
    (tenantAdmitted : Admitted windowMs tenantLimit (tenantHits.map Prod.snd))
    (keyBefore : ∀ hit ∈ keyHits, hit.2 ≤ timed.now)
    (tenantBefore : ∀ hit ∈ tenantHits, hit.2 ≤ timed.now) :
    Fits buckets timed ↔
      Admitted windowMs keyLimit (timed.now :: keyHits.map Prod.snd) ∧
        Admitted windowMs tenantLimit (timed.now :: tenantHits.map Prod.snd) := by
  rw [Fits, hkeyLimit, htenantLimit]
  exact and_congr
    (bucket_fits_iff (.inl rfl) hwindow hkey keyDistinct keyAdmitted keyBefore)
    (bucket_fits_iff (.inr rfl) hwindow htenant tenantDistinct tenantAdmitted tenantBefore)

end Fits

end BrainCore.Shared.Ratelimit
