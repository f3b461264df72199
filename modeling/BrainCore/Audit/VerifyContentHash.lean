import BrainCore.Audit.ChainLinearity
import BrainCore.Audit.JsValueRoundTrip

/-!
# Verification of stored hashes

`verifyContentHashCursor` of `services/audit/src/audit-consistency.ts` hashes
each stored event again.  The hash is the stored one exactly when the values of
the event survive their columns.
-/

namespace BrainCore.Audit

open BrainCore.Foundation
open BrainCore.Foundation.Program

/-- The event as it is read back. -/
def persistedEvent (r : AuditEventRow) : AuditEventInput :=
  { tenantId := r.tenantId
    layer := r.layer
    eventType := some r.eventType
    severity := some r.severity
    actor := r.actor
    actorDisplayName := r.actorDisplayName
    actorEmail := r.actorEmail
    action := r.action
    inputs := r.inputs.data
    outputs := r.outputs.data
    policyVersion := r.policyVersion
    policyDecisionId := r.policyDecisionId
    policyCheckId := r.policyCheckId
    outcome := r.outcome
    beforeState := stateData r.beforeState
    afterState := stateData r.afterState
    keyId := r.keyId }

/-- The hash that `verifyContentHashCursor` compares with the stored one. -/
def recomputed (sha256 : List Char → String) (r : AuditEventRow) : String :=
  hashEvent sha256 {
    event := persistedEvent r
    id := r.id
    createdAt := r.createdAt
    prevEventHash := r.prevEventHash }

/-! ## Columns -/

theorem stable_data_iff {data : JsData} {json : Json} {value : JsonbValue}
    (hjson : data.value.jsonStringify = .ok (some json)) (hvalue : value.json = jsonb json) :
    value.data.value.stableJsonValue = data.value.stableJsonValue ↔ data.value.Survives := by
  have hdistinct : DistinctJson json := JsValue.distinct_jsonStringify data.distinct hjson
  have hread : value.data.value.stableJsonValue = canonical json := by
    change canonical value.json = canonical json
    rw [hvalue, canonical_jsonb hdistinct]
  rw [hread, eq_comm]
  exact JsValue.stable_eq_canonical_iff data.distinct hjson

theorem jsonColumn_ok {data : JsData} {column : Option JsonbValue}
    (h : jsonColumn data = .ok column) : data.column = .ok column := by
  unfold jsonColumn at h
  split at h
  · cases h
    assumption
  · cases h

theorem requiredColumn_iff {name : String} {data : JsData} {value : JsonbValue}
    (h : requiredColumn name data = .ok value) :
    value.data.value.stableJsonValue = data.value.stableJsonValue ↔ data.value.Survives := by
  obtain ⟨column, hcolumn, h⟩ := bind_ok.mp h
  rcases JsData.column_ok (jsonColumn_ok hcolumn) with ⟨rfl, -⟩ | ⟨json, value', rfl, hjson, hvalue⟩
  · cases h
  · cases h
    exact stable_data_iff hjson hvalue

/-- A column that is null is read as a state that was not given. -/
theorem stateColumn_iff {data : JsData} {column : Option JsonbValue}
    (h : jsonColumn data = .ok column) :
    (stateData column).value.stableJsonValue = data.value.stableJsonValue ↔
      data.value.Survives := by
  rcases JsData.column_ok (jsonColumn_ok h) with ⟨rfl, hjson⟩ | ⟨json, value, rfl, hjson, hvalue⟩
  · rw [eq_comm]
    exact JsValue.dropped_iff hjson
  · have hread : (stateData (some value)).value.stableJsonValue =
        value.data.value.stableJsonValue := by
      unfold stateData
      dsimp only
      split
      · rename_i hnull
        change Json.null = canonical value.json
        cases hnone : value.json with
        | null => rfl
        | bool b => rw [hnone] at hnull; cases hnull
        | num n => rw [hnone] at hnull; cases hnull
        | str s => rw [hnone] at hnull; cases hnull
        | arr items => rw [hnone] at hnull; cases hnull
        | obj members => rw [hnone] at hnull; cases hnull
      · rfl
    rw [hread]
    exact stable_data_iff hjson hvalue

/-! ## Hashes -/

/-- Two texts of one form are of the same values. -/
theorem stable_of_ordered {first second : JsValue}
    (h : ordered first.stableJsonValue = ordered second.stableJsonValue) :
    first.stableJsonValue = second.stableJsonValue := by
  rwa [ordered_stableJsonValue, ordered_stableJsonValue] at h

/-- Events of one text have the same values. -/
theorem values_of_canonicalize {first second : HashInput}
    (h : canonicalize first = canonicalize second) :
    first.event.inputs.value.stableJsonValue = second.event.inputs.value.stableJsonValue ∧
    first.event.outputs.value.stableJsonValue = second.event.outputs.value.stableJsonValue ∧
    first.event.beforeState.value.stableJsonValue =
      second.event.beforeState.value.stableJsonValue ∧
    first.event.afterState.value.stableJsonValue =
      second.event.afterState.value.stableJsonValue := by
  refine ⟨?_, ?_, ?_, ?_⟩
  · obtain ⟨value, hmem, hvalue⟩ := @mem_of_stableStringify _ _ "inputs"
      first.event.inputs.value.stableJsonValue h (by simp)
    obtain rfl : value = second.event.inputs.value.stableJsonValue := by simpa using hmem
    exact stable_of_ordered hvalue
  · obtain ⟨value, hmem, hvalue⟩ := @mem_of_stableStringify _ _ "outputs"
      first.event.outputs.value.stableJsonValue h (by simp)
    obtain rfl : value = second.event.outputs.value.stableJsonValue := by simpa using hmem
    exact stable_of_ordered hvalue
  · obtain ⟨value, hmem, hvalue⟩ := @mem_of_stableStringify _ _ "before_state"
      first.event.beforeState.value.stableJsonValue h (by simp)
    obtain rfl : value = second.event.beforeState.value.stableJsonValue := by simpa using hmem
    exact stable_of_ordered hvalue
  · obtain ⟨value, hmem, hvalue⟩ := @mem_of_stableStringify _ _ "after_state"
      first.event.afterState.value.stableJsonValue h (by simp)
    obtain rfl : value = second.event.afterState.value.stableJsonValue := by simpa using hmem
    exact stable_of_ordered hvalue

/-- Events of one text have the same actor. -/
theorem actor_of_canonicalize {first second : HashInput}
    (h : canonicalize first = canonicalize second) : first.event.actor = second.event.actor := by
  obtain ⟨value, hmem, hvalue⟩ := @mem_of_stableStringify _ _ "actor" (.str first.event.actor) h
    (by simp)
  obtain rfl : value = .str second.event.actor := by simpa using hmem
  exact Json.str.inj hvalue

/-- Every value of the event survives the column it is written to. -/
structure EventSurvives (event : AuditEventInput) : Prop where
  inputs : event.inputs.value.Survives
  outputs : event.outputs.value.Survives
  beforeState : event.beforeState.value.Survives
  afterState : event.afterState.value.Survives

variable {sha256 : List Char → String} {hashtext : String → Int}

/-- The row of an event is hashed alike exactly when its values survive. -/
theorem recomputed_auditEventRow (hsha : Function.Injective sha256) {event : AuditEventInput}
    {id createdAt : String} {prevEventHash : Option String} {row : AuditEventRow}
    (h : auditEventRow sha256 event id createdAt prevEventHash = .ok row) :
    recomputed sha256 row = row.eventHash ↔ EventSurvives event := by
  unfold auditEventRow at h
  obtain ⟨inputs, hinputs, h⟩ := bind_ok.mp h
  obtain ⟨outputs, houtputs, h⟩ := bind_ok.mp h
  obtain ⟨beforeState, hbefore, h⟩ := bind_ok.mp h
  obtain ⟨afterState, hafter, h⟩ := bind_ok.mp h
  cases h
  constructor
  · intro hhash
    obtain ⟨h₁, h₂, h₃, h₄⟩ := values_of_canonicalize (hsha hhash)
    exact ⟨(requiredColumn_iff hinputs).mp h₁, (requiredColumn_iff houtputs).mp h₂,
      (stateColumn_iff hbefore).mp h₃, (stateColumn_iff hafter).mp h₄⟩
  · rintro ⟨h₁, h₂, h₃, h₄⟩
    refine congrArg (fun json => sha256 (stableStringify json)) (?_ : payload _ = payload _)
    simp only [payload, persistedEvent, (requiredColumn_iff hinputs).mpr h₁,
      (requiredColumn_iff houtputs).mpr h₂, (stateColumn_iff hbefore).mpr h₃,
      (stateColumn_iff hafter).mpr h₄]
    rfl

/-! ## Emitted events -/

/-- `{ note: undefined }`. -/
def undefinedNote : JsData :=
  ⟨.obj [("note", .undefined)], List.nodup_singleton _, ⟨trivial, trivial⟩, nofun⟩

end BrainCore.Audit
