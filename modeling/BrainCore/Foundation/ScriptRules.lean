import BrainCore.Foundation.Script

/-!
# Scripts that keep to a discipline

A script is sound for what it knows when each of its transactions commits what
the discipline permits.  What it knows between two transactions is lasting, so
that no commit of another call makes it false.  Sound scripts keep to the
discipline however their calls interleave.  A call may have its own share of
what the discipline permits; each commit is then within the share of the call
that makes it.
-/

namespace BrainCore.Foundation

variable {σ ω ν τ ε α β γ κ : Type} {store : Store σ ω}

namespace Discipline

variable (d : Discipline store)

/-- A transaction that starts with what is known and ends in a commit within `share`, after which
the database is as its result says. -/
def CommitsAs (share : σ → List ω → Prop) (know : σ → Prop) (body : Program σ ω ε α)
    (learn : α → σ → Prop) : Prop :=
  d.Triple (fun db own => know db ∧ own = []) body
    fun result db own => share db own ∧ learn result (store.view db own)

/-- A transaction that ends in a permitted commit. -/
abbrev Commits (know : σ → Prop) (body : Program σ ω ε α) (learn : α → σ → Prop) : Prop :=
  d.CommitsAs d.permits know body learn

/-- Each transaction of the script is within `share`, and what it returns is as `post` says. -/
def SoundAs (share : σ → List ω → Prop) (know : σ → Prop) :
    Script σ ω ν τ ε β → (β → σ → Prop) → Prop
  | .finished result, post =>
      ∀ value, result = .ok value → ∀ db, d.invariant db → know db → post value db
  | .perform act next, post => ∀ env, SoundAs share know (next (act env).1) post
  | .transaction (α := α) body next, post =>
      ∃ learn : Except ε α → σ → Prop, (∀ result, d.Lasting (learn result)) ∧
        (∀ error db, d.invariant db → know db → learn (.error error) db) ∧
        d.CommitsAs share know body (fun value => learn (.ok value)) ∧
        ∀ result, SoundAs share (learn result) (next result) post

/-- Each transaction of the script is permitted. -/
abbrev Sound (know : σ → Prop) (script : Script σ ω ν τ ε β) (post : β → σ → Prop) : Prop :=
  d.SoundAs d.permits know script post

/-- The share of a call is a part of what the discipline permits. -/
def Within (share : σ → List ω → Prop) : Prop :=
  ∀ db writes, d.invariant db → share db writes → d.permits db writes

variable {d}

/-! ## The rules -/

namespace Sound

variable {share : σ → List ω → Prop} {know know' : σ → Prop} {post post' : β → σ → Prop}

theorem weaken {script : Script σ ω ν τ ε β} (h : d.SoundAs share know script post)
    (hknow : ∀ db, d.invariant db → know' db → know db) : d.SoundAs share know' script post := by
  induction script with
  | finished result => exact fun value hvalue db hdb hdb' => h value hvalue db hdb (hknow db hdb hdb')
  | perform act next ih => exact fun env => ih _ (h env)
  | transaction body next _ =>
      obtain ⟨learn, hlasting, herror, hbody, hnext⟩ := h
      refine ⟨learn, hlasting, fun error db hdb hdb' => herror error db hdb (hknow db hdb hdb'),
        ?_, hnext⟩
      exact Triple.weaken hbody fun db own hdb hown => ⟨hknow db hdb hown.1, hown.2⟩

theorem mono {script : Script σ ω ν τ ε β} (h : d.SoundAs share know script post)
    (hpost : ∀ value db, d.invariant db → post value db → post' value db) :
    d.SoundAs share know script post' := by
  induction script generalizing know with
  | finished result =>
      exact fun value hvalue db hdb hdb' => hpost value db hdb (h value hvalue db hdb hdb')
  | perform act next ih => exact fun env => ih _ (h env)
  | transaction body next ih =>
      obtain ⟨learn, hlasting, herror, hbody, hnext⟩ := h
      exact ⟨learn, hlasting, herror, hbody, fun result => ih result (hnext result)⟩

theorem pure {value : β} (h : ∀ db, d.invariant db → know db → post value db) :
    d.SoundAs share know (Pure.pure value : Script σ ω ν τ ε β) post := by
  rintro _ ⟨⟩
  exact h

theorem throw (error : ε) : d.SoundAs share know (Script.throw error : Script σ ω ν τ ε β) post := nofun

theorem bind {script : Script σ ω ν τ ε α} {rest : α → Script σ ω ν τ ε β}
    {mid : α → σ → Prop} (h : d.SoundAs share know script mid)
    (hrest : ∀ value, d.SoundAs share (mid value) (rest value) post) :
    d.SoundAs share know (script >>= rest) post := by
  change d.SoundAs share know (script.bind rest) post
  induction script generalizing know with
  | finished result =>
      cases result with
      | error error => nofun
      | ok value => exact weaken (hrest value) (h value rfl)
  | perform act next ih => exact fun env => ih _ (h env)
  | transaction body next ih =>
      obtain ⟨learn, hlasting, herror, hbody, hnext⟩ := h
      exact ⟨learn, hlasting, herror, hbody, fun result => ih result (hnext result)⟩

theorem tryCatchAs {script : Script σ ω ν τ ε β} {handle : ε → Script σ ω ν τ ε β}
    (hshare : d.Within share) (hlasting : d.Lasting know) (h : d.SoundAs share know script post)
    (hhandle : ∀ error, d.SoundAs share know (handle error) post) :
    d.SoundAs share know (script.tryCatch handle) post := by
  suffices hall : ∀ know', (∀ db, d.invariant db → know' db → know db) →
      d.SoundAs share know' script post → d.SoundAs share know' (script.tryCatch handle) post from
    hall know (fun _ _ => id) h
  clear h
  induction script with
  | finished result =>
      intro know' hknow h
      cases result with
      | ok value => exact h
      | error error => exact weaken (hhandle error) hknow
  | perform act next ih => exact fun know' hknow h env => ih _ know' hknow (h env)
  | transaction body next ih =>
      rintro know' hknow ⟨learn, hlearn, herror, hbody, hnext⟩
      refine ⟨fun result db => know db ∧ learn result db,
        fun result => hlasting.and (hlearn result),
        fun error db hdb h => ⟨hknow db hdb h, herror error db hdb h⟩, ?_, fun result => ?_⟩
      · have hframe := Triple.frame hlasting hbody
        refine Triple.mono (Triple.weaken hframe fun db own hdb hown =>
          ⟨hknow db hdb hown.1, hown⟩) ?_
        rintro value db own hdb ⟨hdb', hpermits, hlearned⟩
        exact ⟨hpermits, hlasting db own hdb hdb' (hshare db own hdb hpermits), hlearned⟩
      · exact ih result _ (fun _ _ => And.left)
          (weaken (hnext result) fun _ _ => And.right)

theorem tryCatch {script : Script σ ω ν τ ε β} {handle : ε → Script σ ω ν τ ε β}
    (hlasting : d.Lasting know) (h : d.Sound know script post)
    (hhandle : ∀ error, d.Sound know (handle error) post) :
    d.Sound know (script.tryCatch handle) post :=
  tryCatchAs (fun _ _ _ => id) hlasting h hhandle

/-- What is lasting stays known. -/
theorem frameAs {fact : σ → Prop} (hshare : d.Within share) (hfact : d.Lasting fact) {script : Script σ ω ν τ ε β}
    (h : d.SoundAs share know script post) :
    d.SoundAs share (fun db => fact db ∧ know db) script fun value db => fact db ∧ post value db := by
  induction script generalizing know with
  | finished result =>
      exact fun value hvalue db hdb hboth => ⟨hboth.1, h value hvalue db hdb hboth.2⟩
  | perform act next ih => exact fun env => ih _ (h env)
  | transaction body next ih =>
      obtain ⟨learn, hlearn, herror, hbody, hnext⟩ := h
      refine ⟨fun result db => fact db ∧ learn result db, fun result => hfact.and (hlearn result),
        fun error db hdb hboth => ⟨hboth.1, herror error db hdb hboth.2⟩, ?_,
        fun result => ih result (hnext result)⟩
      refine Triple.mono (Triple.weaken (Triple.frame hfact hbody) fun db own _ hown =>
        ⟨hown.1.1, hown.1.2, hown.2⟩) ?_
      rintro value db own hdb ⟨hdb', hpermits, hlearned⟩
      exact ⟨hpermits, hfact db own hdb hdb' (hshare db own hdb hpermits), hlearned⟩

theorem frame {fact : σ → Prop} (hfact : d.Lasting fact) {script : Script σ ω ν τ ε β}
    (h : d.Sound know script post) :
    d.Sound (fun db => fact db ∧ know db) script fun value db => fact db ∧ post value db :=
  frameAs (fun _ _ _ => id) hfact h

theorem of_false {script : Script σ ω ν τ ε β} (h : ∀ db, ¬know db) :
    d.SoundAs share know script post := by
  induction script generalizing know with
  | finished result => exact fun _ _ db _ hdb => absurd hdb (h db)
  | perform act next ih => exact fun env => ih _ h
  | transaction body next ih =>
      refine ⟨fun _ _ => False, fun _ => fun _ _ _ => False.elim, ?_, ?_, ?_⟩
      · exact fun _ db _ hdb => absurd hdb (h db)
      · exact Triple.of_false fun db own hown => h db hown.1
      · exact fun result => ih result fun _ => not_false

/-- A part of what is known that is not about the database. -/
theorem assume {p : Prop} {script : Script σ ω ν τ ε β} (h : p → d.SoundAs share know script post) :
    d.SoundAs share (fun db => p ∧ know db) script post := by
  by_cases hp : p
  · exact weaken (h hp) fun _ _ => And.right
  · exact of_false fun _ hdb => hp hdb.1

theorem ofExcept {result : Except ε β}
    (h : ∀ value, result = .ok value → ∀ db, d.invariant db → know db → post value db) :
    d.SoundAs share know (Script.ofExcept result : Script σ ω ν τ ε β) post := h

theorem ask (answer : ν → Except ε β) :
    d.SoundAs share know (Script.ask answer : Script σ ω ν τ ε β) fun _ => know :=
  fun _ _ _ _ _ hknow => hknow

theorem callOut (act : ν → Except ε β × List τ) :
    d.SoundAs share know (Script.callOut act : Script σ ω ν τ ε β) fun _ => know :=
  fun _ _ _ _ _ hknow => hknow

/-- What is known after a transaction: what it promised, or what was known before when it failed. -/
def after (know : σ → Prop) (post : β → σ → Prop) : Except ε β → σ → Prop
  | .ok value => post value
  | .error _ => know

theorem transact {body : Program σ ω ε β} (hknow : d.Lasting know)
    (hpost : ∀ value, d.Lasting (post value)) (h : d.CommitsAs share know body post) :
    d.SoundAs share know (Script.transact body : Script σ ω ν τ ε β) post := by
  refine ⟨after know post, fun result => ?_, fun _ _ _ => id, h,
    fun result value hvalue db _ hdb => ?_⟩
  · cases result with
    | ok value => exact hpost value
    | error error => exact hknow
  · subst hvalue
    exact hdb

end Sound

/-- A transaction of one statement: what holds right after the statement holds until the commit. -/
theorem CommitsAs.execute {d : Discipline store} {share : σ → List ω → Prop} {know : σ → Prop}
    {run : σ → Except ε (List ω × α)} {learn : α → σ → Prop} (fact : α → σ → List ω → Prop)
    (hstable : ∀ value, d.Stable (fact value))
    (hrun : ∀ db new value, d.invariant db → know db → run db = .ok (new, value) →
      fact value db new)
    (hend : ∀ value db own, d.invariant db → fact value db own →
      share db own ∧ learn value (store.view db own)) :
    d.CommitsAs share know (Program.execute run) learn := by
  refine Triple.mono (Triple.execute hstable ?_) hend
  rintro db own new value hdb ⟨hknow, rfl⟩ hresult
  exact hrun db new value hdb hknow hresult

end Discipline

end BrainCore.Foundation
