import BrainCore.Execution.LifecycleTransactions
import BrainCore.Foundation.JsonText

/-!
# Hand-offs, proposals and decisions keep the lifecycle

The hand-off transaction moves its intent to `dispatching` and leaves an outbox
row under the key of a recorded decision, its own or one of an earlier hand-off.
The insert of a proposal and of a decision write one row each.
-/

namespace BrainCore.Execution

open BrainCore.Foundation BrainCore.Gate BrainCore.Ledger BrainCore.Policy

/-! ## Rows that were written -/

/-- A key that was written holds one of the rows written for it. -/
theorem view_written {ρ : Type} {key : ρ → String} (table : Database → Table key)
    (wrap : ρ → Write) (hwrap : ∀ row db, table ((wrap row).apply db) = (table db).put row)
    {writes : List Write}
    (hskip : ∀ w ∈ writes, (∃ row, w = wrap row) ∨ ∀ db, table (w.apply db) = table db)
    (db : Database) {row : ρ} (hmem : wrap row ∈ writes) :
    ∃ last, wrap last ∈ writes ∧ key last = key row ∧
      (table (database.view db writes)).find? (key row) = some last := by
  induction writes generalizing db with
  | nil => cases hmem
  | cons w rest ih =>
      have hrest := fun w hw => hskip w (List.mem_cons_of_mem _ hw)
      rw [view_cons]
      rcases List.mem_cons.mp hmem with rfl | hmem
      · rcases view_cases table wrap hwrap hrest ((wrap row).apply db) (key row) with
          ⟨last, hlast, hkey, hfind⟩ | hsame
        · exact ⟨last, List.mem_cons_of_mem _ hlast, hkey, hfind⟩
        · refine ⟨row, List.mem_cons_self, rfl, hsame.trans ?_⟩
          rw [hwrap, Table.find?_put, if_pos rfl]
      · obtain ⟨last, hlast, hkey, hfind⟩ := ih hrest (w.apply db) hmem
        exact ⟨last, List.mem_cons_of_mem _ hlast, hkey, hfind⟩

theorem outbox_written (db : Database) {writes : List Write} {row : OutboxRow}
    (hmem : .outbox row ∈ writes) :
    ∃ last, .outbox last ∈ writes ∧ last.id = row.id ∧
      (database.view db writes).outbox.find? row.id = some last := by
  apply view_written Database.outbox Write.outbox (fun _ _ => rfl) _ db hmem
  intro w _
  cases w with
  | outbox row => exact .inl ⟨row, rfl⟩
  | intent | execution | reservation | account | balance | counter | decision | «facts» | policy =>
      exact .inr fun _ => rfl

theorem decision_written (db : Database) {writes : List Write} {row : PolicyDecisionRow}
    (hmem : .decision row ∈ writes) : IsRecorded (database.view db writes) row.id := by
  have hskip : ∀ w ∈ writes, (∃ row, w = Write.decision row) ∨
      ∀ db, Database.decisions (w.apply db) = db.decisions := by
    intro w _
    cases w with
    | decision row => exact .inl ⟨row, rfl⟩
    | intent | outbox | execution | reservation | account | balance | counter | «facts»
    | policy => exact .inr fun _ => rfl
  obtain ⟨last, -, -, hfind⟩ :=
    view_written Database.decisions Write.decision (fun _ _ => rfl) hskip db hmem
  exact ⟨last, hfind⟩

/-! ## Keys -/

/-- The key of a hand-off names its intent. -/
theorem handOffKey_intent {first second decision decision' : String} (hfirst : KeyPart first)
    (hsecond : KeyPart second) (h : handOffKey first decision = handOffKey second decision') :
    first = second := by
  have hchars := congrArg String.toList h
  simp only [handOffKey, String.toList_append, List.append_assoc] at hchars
  have hrest := List.append_cancel_left hchars
  have hnot : ∀ {s : List Char}, ∀ c, (":".toList ++ s).head? = some c → ¬c ≠ ':' := by
    intro s c hc
    cases hc
    exact not_not.mpr rfl
  have hparts := append_inj_of_break (P := fun c => c ≠ ':')
    (fun c hc heq => hfirst (heq ▸ hc)) (fun c hc heq => hsecond (heq ▸ hc)) hnot hnot hrest
  exact String.toList_inj.mp hparts.1

/-! ## The hand-off -/

/-- What a hand-off writes. -/
def HandingWrite (intentId : String) (db : Database) : Write → Prop
  | .intent row =>
      row.id = intentId ∧ ∃ old, db.intents.find? row.id = some old ∧ Moves old row
  | .outbox row =>
      row.paymentIntentId = intentId ∧ Keyed db row ∧ db.outbox.find? row.id = none
  | .decision _ => False
  | _ => True

def Handing (intentId : String) (db : Database) (own : List Write) : Prop :=
  ∀ w ∈ own, HandingWrite intentId db w

/-- No outbox row is written yet. -/
def OutboxUntouched (own : List Write) : Prop := ∀ row, .outbox row ∉ own

/-- The outbox row is written, or there is one from an earlier hand-off. -/
def Handed (intentId : String) (db : Database) (own : List Write) : Prop :=
  (∃ row, .outbox row ∈ own) ∨ HandedOff db intentId ∧ OutboxUntouched own

theorem handing_stable (intentId : String) : lifecycle.Stable (Handing intentId) := by
  intro db own theirs _ h _ hfree w hw
  have hwrite := h w hw
  cases w with
  | intent row =>
      obtain ⟨hid, old, hold, hmoves⟩ := hwrite
      exact ⟨hid, old, (intent_of_free hfree hw).trans hold, hmoves⟩
  | outbox row =>
      obtain ⟨hintent, hkeyed, hfresh⟩ := hwrite
      exact ⟨hintent, hkeyed.view theirs, (outbox_of_free hfree hw).trans hfresh⟩
  | decision => exact hwrite.elim
  | execution | reservation | account | balance | counter | «facts» | policy => trivial

theorem handed_stable (intentId : String) : lifecycle.Stable (Handed intentId) := by
  rintro db own theirs - (hrow | ⟨hearlier, huntouched⟩) hcommit -
  · exact .inl hrow
  · exact .inr ⟨hearlier.view hcommit, huntouched⟩

theorem handingWrite_of_quiet {intentId : String} {db : Database} {w : Write} (h : IsQuiet w) :
    HandingWrite intentId db w := by
  cases w with
  | intent | outbox | decision => exact h.elim
  | execution | reservation | account | balance | counter | «facts» | policy => trivial

theorem Handing.append {intentId : String} {db : Database} {own new : List Write}
    (h : Handing intentId db own) (hnew : ∀ w ∈ new, HandingWrite intentId db w) :
    Handing intentId db (own ++ new) := by
  intro w hw
  rcases List.mem_append.mp hw with hw | hw
  · exact h w hw
  · exact hnew w hw

theorem view_outbox_untouched {own : List Write} (h : OutboxUntouched own) (db : Database) :
    (database.view db own).outbox = db.outbox := by
  apply view_of_skip Database.outbox
  intro w hw db'
  cases w with
  | outbox row => exact absurd hw (h row)
  | intent | execution | reservation | account | balance | counter | decision | «facts»
  | policy => rfl

/-- An outbox row of the intent is there after the commit. -/
theorem Handed.handedOff {intentId : String} {db : Database} {own : List Write}
    (hhanding : Handing intentId db own) (h : Handed intentId db own) :
    HandedOff (database.view db own) intentId := by
  rcases h with ⟨row, hmem⟩ | ⟨⟨row, hstored, hintent, decision, hkey, hrecorded⟩, huntouched⟩
  · obtain ⟨last, hlast, hid, hfind⟩ := outbox_written db hmem
    obtain ⟨hintent, ⟨-, decision, hkey, hrecorded⟩, -⟩ := hhanding _ hlast
    exact ⟨last, hid ▸ hfind, hintent, decision, hintent ▸ hkey, hrecorded.view own⟩
  · have hsame := view_outbox_untouched huntouched db
    exact ⟨row, hsame ▸ hstored, hintent, decision, hkey, hrecorded.view own⟩

theorem Handed.mayCommit {intentId : String} {db : Database} {own : List Write}
    (hhanding : Handing intentId db own) (h : Handed intentId db own) : MayCommit db own := by
  have hafter := h.handedOff hhanding
  intro w hw
  have hwrite := hhanding w hw
  cases w with
  | intent row =>
      obtain ⟨hid, old, hold, hmoves⟩ := hwrite
      exact .inr ⟨old, hold, hmoves, fun _ => .inr (hid ▸ hafter)⟩
  | outbox row =>
      obtain ⟨-, hkeyed, hfresh⟩ := hwrite
      refine ⟨hkeyed, fun old hold => ?_⟩
      rw [hfresh] at hold
      cases hold
  | decision => exact hwrite.elim
  | execution | reservation | account | balance | counter | «facts» | policy => trivial

/-- Before the outbox row is written. -/
def Started (intentId : String) (db : Database) (own : List Write) : Prop :=
  KeyPart intentId ∧ Handing intentId db own ∧ OutboxUntouched own

theorem started_stable (intentId : String) : lifecycle.Stable (Started intentId) :=
  (Discipline.stable_own fun _ => KeyPart intentId).and
    ((handing_stable intentId).and (Discipline.stable_own OutboxUntouched))

theorem started_closed (intentId : String) : QuietClosed (Started intentId) := by
  rintro db own new ⟨hnamed, hhanding, huntouched⟩ hnew
  refine ⟨hnamed, hhanding.append fun w hw => handingWrite_of_quiet (hnew w hw), ?_⟩
  intro row hmem
  rcases List.mem_append.mp hmem with hmem | hmem
  · exact huntouched row hmem
  · exact hnew _ hmem

theorem isRecorded_lasting (decision : String) :
    lifecycle.Lasting fun db => IsRecorded db decision :=
  fun _ writes _ h _ => h.view writes

/-- The compare-and-set of the hand-off: nothing is written, or the intent is dispatching. -/
theorem triple_dispatch (id : String) (now : Instant) :
    lifecycle.Triple (fun _ own => own = [])
      (LedgerPaymentIntents.transition id .approved .dispatching now) fun moved db own =>
        (moved = none → own = []) ∧ (moved ≠ none → Started id db own) := by
  apply Discipline.Triple.execute
  · rintro moved db own theirs hdb ⟨hnone, hsome⟩ hcommit hfree
    exact ⟨hnone, fun hmoved => started_stable id db own theirs hdb (hsome hmoved) hcommit hfree⟩
  · rintro db own new value hdb rfl hrun
    split at hrun
    · cases hrun
      exact ⟨fun _ => rfl, fun hne => absurd rfl hne⟩
    · rename_i row hrow
      cases hrun
      refine ⟨nofun, fun _ => ?_⟩
      obtain ⟨old, hold, hstatus, rfl⟩ := PaymentIntents.transitioned_eq_some hrow
      have hid : old.id = id := Table.key_of_find? hold
      refine ⟨hdb.named id old hold, fun w hw => ?_, fun row hmem => ?_⟩
      · rw [List.mem_singleton.mp hw]
        refine ⟨hid, old, (congrArg _ hid).trans hold, moves_withStatus now ?_ ?_⟩
        · rw [hstatus]
          rfl
        · rw [hstatus]
          intro hsame
          cases hsame
      · cases List.mem_singleton.mp hmem

/-- The row is inserted, or one of its key is there, which is of the same intent. -/
theorem triple_insertOutbox (handOff : HandOff) (reservationId : Option String) :
    lifecycle.Triple
      (fun db own => IsRecorded db handOff.gate.policyDecisionId ∧ Started handOff.intent.id db own)
      (insertOutbox (handOff.outboxRow reservationId)) fun _ db own =>
        Handing handOff.intent.id db own ∧ Handed handOff.intent.id db own := by
  apply Discipline.Triple.execute fun _ =>
    (handing_stable handOff.intent.id).and (handed_stable handOff.intent.id)
  rintro db own new value hdb ⟨hrecorded, hnamed, hhanding, huntouched⟩ hrun
  rw [view_outbox_untouched huntouched] at hrun
  split at hrun
  · rename_i existing hexisting
    cases hrun
    rw [List.append_nil]
    refine ⟨hhanding, .inr ⟨?_, huntouched⟩⟩
    unfold Outbox.findByIdempotencyKey at hexisting
    have hmem := List.mem_of_find?_eq_some hexisting
    have hkey := List.find?_some hexisting
    rw [decide_eq_true_eq] at hkey
    obtain ⟨hpart, hover⟩ := hdb.keyed existing.id existing (Table.find?_key hmem)
    obtain ⟨decision, hown, -⟩ := hover.decided
    have hsame := handOffKey_intent hpart hnamed (hown.symm.trans hkey)
    exact ⟨existing, hsame ▸ hover⟩
  · split at hrun
    · cases hrun
    · rename_i inserted hinserted
      cases hrun
      refine ⟨hhanding.append fun w hw => ?_, .inl ⟨_, List.mem_append_right _ List.mem_cons_self⟩⟩
      rw [List.mem_singleton.mp hw]
      exact ⟨rfl, ⟨hnamed, _, rfl, hrecorded⟩, Table.insert?_fresh hinserted⟩

theorem triple_enqueue (handOff : HandOff) (reservationId : Option String) :
    lifecycle.Triple
      (fun db own => IsRecorded db handOff.gate.policyDecisionId ∧ Started handOff.intent.id db own)
      (enqueue (handOff.outboxRow reservationId)) fun _ => MayCommit := by
  have hdone : ∀ answer : String × Bool, lifecycle.Triple
      (fun db own => Handing handOff.intent.id db own ∧ Handed handOff.intent.id db own)
      (pure answer : Transact (String × Bool)) fun _ => MayCommit := fun answer =>
    Discipline.Triple.done fun _ _ _ h => h.2.mayCommit h.1
  apply Discipline.Triple.bind (triple_insertOutbox handOff reservationId)
  rintro (_ | id)
  · have hstable := (handing_stable handOff.intent.id).and (handed_stable handOff.intent.id)
    apply Discipline.Triple.bind
      (Discipline.Triple.select (fun _ => hstable) fun _ _ _ h => h)
    rintro (_ | existing)
    · exact Discipline.Triple.throw _
    · exact hdone _
  · exact hdone _

theorem mayCommit_nil (db : Database) : MayCommit db [] := by
  intro w hw
  cases hw

theorem HandOff.commits (handOff : HandOff) :
    lifecycle.Commits (fun db => IsRecorded db handOff.gate.policyDecisionId) handOff.transaction
      fun _ _ => True := by
  have hfact := isRecorded_lasting handOff.gate.policyDecisionId
  have hmoved := Discipline.Triple.frame hfact (triple_dispatch handOff.intent.id handOff.now)
  suffices h : lifecycle.Triple
      (fun db own => IsRecorded db handOff.gate.policyDecisionId ∧ own = []) handOff.transaction
      fun _ => MayCommit from
    Discipline.Triple.mono h fun _ _ _ _ hcommit => ⟨hcommit, trivial⟩
  refine Discipline.Triple.bind (Discipline.Triple.ofExcept fun _ _ _ _ _ h => h) fun _ => ?_
  apply Discipline.Triple.bind hmoved
  rintro (_ | row)
  · refine Discipline.Triple.bind (Discipline.Triple.select
      (fun _ => Discipline.stable_own fun own => own = []) fun db own _ h => h.2.1 rfl) fun _ => ?_
    apply Discipline.Triple.done
    rintro db own - rfl
    exact mayCommit_nil db
  · have hstable := hfact.stable.and (started_stable handOff.intent.id)
    have hclosed : QuietClosed fun db own =>
        IsRecorded db handOff.gate.policyDecisionId ∧ Started handOff.intent.id db own :=
      fun db own new h hnew => ⟨h.1, started_closed _ db own new h.2 hnew⟩
    have hreserve := (handOff.harmless_reserve _ hstable hclosed).weaken
      fun db own _ (h : IsRecorded db handOff.gate.policyDecisionId ∧
        (some row = none → own = []) ∧ (some row ≠ none → Started handOff.intent.id db own)) =>
          And.intro h.1 (h.2.2 nofun)
    refine Discipline.Triple.bind hreserve fun reservationId => ?_
    exact Discipline.Triple.bind (triple_enqueue handOff reservationId) fun _ =>
      Discipline.Triple.done fun _ _ _ => id

/-! ## New rows -/

/-- The one row that is written is a new intent's. -/
def BornAlone (row : PaymentIntentRow) (db : Database) (own : List Write) : Prop :=
  own = [.intent row] ∧ Born db row

theorem bornAlone_stable (row : PaymentIntentRow) : lifecycle.Stable (BornAlone row) := by
  rintro db own theirs - ⟨rfl, hfresh, hnamed, hinitial, decision, hdecision, hrecorded⟩ - hfree
  refine ⟨rfl, ?_, hnamed, hinitial, decision, hdecision, hrecorded.view theirs⟩
  exact (intent_of_free hfree List.mem_cons_self).trans hfresh

theorem commits_insert {row : PaymentIntentRow} {decision : String} (hnamed : KeyPart row.id)
    (hinitial : IsInitial row.status) (hdecision : row.policyDecisionId = some decision) :
    lifecycle.Commits (fun db => IsRecorded db decision) (LedgerPaymentIntents.insert row)
      fun _ _ => True := by
  have hborn : lifecycle.Triple (fun db own => IsRecorded db decision ∧ own = [])
      (LedgerPaymentIntents.insert row) fun _ => BornAlone row := by
    apply Discipline.Triple.execute fun _ => bornAlone_stable row
    rintro db own new value - ⟨hrecorded, rfl⟩ hrun
    split at hrun
    · cases hrun
    · rename_i inserted hinserted
      cases hrun
      refine ⟨rfl, ?_, hnamed, hinitial, decision, hdecision, hrecorded⟩
      change db.intents.insert row = some inserted at hinserted
      unfold PaymentIntents.insert at hinserted
      split at hinserted
      · cases hinserted
      · exact Table.insert?_fresh hinserted
  apply Discipline.Triple.mono hborn
  rintro _ db own - ⟨rfl, hborn⟩
  refine ⟨fun w hw => ?_, trivial⟩
  rw [List.mem_singleton.mp hw]
  exact .inl hborn

theorem commits_decision (row : PolicyDecisionRow) :
    lifecycle.Commits (fun _ => True) (insertPolicyDecision row)
      fun _ db => IsRecorded db row.id := by
  have hwritten : lifecycle.Triple (fun _ own => True ∧ own = []) (insertPolicyDecision row)
      fun _ _ own => own = [.decision row] := by
    apply Discipline.Triple.execute fun _ =>
      Discipline.stable_own fun own => own = [Write.decision row]
    rintro db own new value - ⟨-, rfl⟩ hrun
    split at hrun
    · cases hrun
    · cases hrun
      rfl
  apply Discipline.Triple.mono hwritten
  rintro _ db own - rfl
  refine ⟨fun w hw => ?_, decision_written db List.mem_cons_self⟩
  rw [List.mem_singleton.mp hw]
  trivial

end BrainCore.Execution
