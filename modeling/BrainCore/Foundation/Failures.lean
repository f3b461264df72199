import BrainCore.Foundation.CallRoles

/-!
# Which statements fail

A triple says nothing of the statements that fail.  An outcome also says where
they do: whenever a statement of the program fails, something bad holds of the
database and of the transaction's own writes.  In a run every transaction that
fails on its own does so where the outcome of its call says.
-/

namespace BrainCore.Foundation

variable {σ ω ν τ ε α β κ : Type} {store : Store σ ω}

namespace Discipline

variable (d : Discipline store)

/-- A triple of a program whose statements fail only where `bad` holds. -/
def Outcome (bad : ε → σ → List ω → Prop) (pre : σ → List ω → Prop) :
    Program σ ω ε β → (β → σ → List ω → Prop) → Prop
  | .done result, post => ∀ db own, d.invariant db → pre db own → post result db own
  | .statement (α := α) run next, post =>
      ∃ mid : α → σ → List ω → Prop, (∀ value, d.Stable (mid value)) ∧
        (∀ db own error, d.invariant db → pre db own →
          run (store.view db own) = .error error → bad error db own) ∧
        (∀ db own new value, d.invariant db → pre db own →
          run (store.view db own) = .ok (new, value) → mid value db (own ++ new)) ∧
        ∀ value, Outcome bad (mid value) (next value) post

variable {d}

namespace Outcome

variable {bad : ε → σ → List ω → Prop} {pre pre' : σ → List ω → Prop}
  {post post' : β → σ → List ω → Prop}

theorem triple {program : Program σ ω ε β} (h : d.Outcome bad pre program post) :
    d.Triple pre program post := by
  induction program generalizing pre with
  | done result => exact h
  | statement run next ih =>
      obtain ⟨mid, hstable, -, hrun, hnext⟩ := h
      exact ⟨mid, hstable, hrun, fun value => ih value (hnext value)⟩

theorem weaken {program : Program σ ω ε β} (h : d.Outcome bad pre program post)
    (hpre : ∀ db own, d.invariant db → pre' db own → pre db own) :
    d.Outcome bad pre' program post := by
  cases program with
  | done result => exact fun db own hdb hown => h db own hdb (hpre db own hdb hown)
  | statement run next =>
      obtain ⟨mid, hstable, hfail, hrun, hnext⟩ := h
      exact ⟨mid, hstable,
        fun db own error hdb hown => hfail db own error hdb (hpre db own hdb hown),
        fun db own new value hdb hown => hrun db own new value hdb (hpre db own hdb hown), hnext⟩

theorem mono {program : Program σ ω ε β} (h : d.Outcome bad pre program post)
    (hpost : ∀ result db own, d.invariant db → post result db own → post' result db own) :
    d.Outcome bad pre program post' := by
  induction program generalizing pre with
  | done result => exact fun db own hdb hown => hpost result db own hdb (h db own hdb hown)
  | statement run next ih =>
      obtain ⟨mid, hstable, hfail, hrun, hnext⟩ := h
      exact ⟨mid, hstable, hfail, hrun, fun value => ih value (hnext value)⟩

theorem done {result : β} (h : ∀ db own, d.invariant db → pre db own → post result db own) :
    d.Outcome bad pre (.done result : Program σ ω ε β) post := h

theorem bind {program : Program σ ω ε α} {rest : α → Program σ ω ε β}
    {mid : α → σ → List ω → Prop} (h : d.Outcome bad pre program mid)
    (hrest : ∀ value, d.Outcome bad (mid value) (rest value) post) :
    d.Outcome bad pre (program.bind rest) post := by
  induction program generalizing pre with
  | done result => exact (hrest result).weaken h
  | statement run next ih =>
      obtain ⟨between, hstable, hfail, hrun, hnext⟩ := h
      exact ⟨between, hstable, hfail, hrun, fun value => ih value (hnext value)⟩

theorem execute {run : σ → Except ε (List ω × β)} (hstable : ∀ value, d.Stable (post value))
    (hfail : ∀ db own error, d.invariant db → pre db own →
      run (store.view db own) = .error error → bad error db own)
    (hrun : ∀ db own new value, d.invariant db → pre db own →
      run (store.view db own) = .ok (new, value) → post value db (own ++ new)) :
    d.Outcome bad pre (Program.execute run) post :=
  ⟨post, hstable, hfail, hrun, fun _ _ _ _ h => h⟩

theorem select {read : σ → β} (hstable : ∀ value, d.Stable (post value))
    (hread : ∀ db own, d.invariant db → pre db own → post (read (store.view db own)) db own) :
    d.Outcome bad pre (Program.select (ε := ε) read) post := by
  apply execute hstable
  · rintro db own error - - ⟨⟩
  · intro db own new value hdb hown hrun
    cases hrun
    rw [List.append_nil]
    exact hread db own hdb hown

theorem throw {error : ε} (h : ∀ db own, d.invariant db → pre db own → bad error db own) :
    d.Outcome bad pre (Program.throw error : Program σ ω ε β) post := by
  refine ⟨fun _ _ _ => False, fun _ => stable_own fun _ => False, ?_, ?_, ?_⟩
  · rintro db own _ hdb hown ⟨⟩
    exact h db own hdb hown
  · intro db own new value _ _ hrun
    cases hrun
  · rintro value db own - ⟨⟩

theorem ofExcept {result : Except ε β}
    (hfail : ∀ error, result = .error error →
      ∀ db own, d.invariant db → pre db own → bad error db own)
    (h : ∀ value, result = .ok value → ∀ db own, d.invariant db → pre db own → post value db own) :
    d.Outcome bad pre (Program.ofExcept result : Program σ ω ε β) post := by
  cases result with
  | ok value => exact done (h value rfl)
  | error error => exact throw (hfail error rfl)

theorem of_false {program : Program σ ω ε β} (h : ∀ db own, ¬pre db own) :
    d.Outcome bad pre program post := by
  induction program generalizing pre with
  | done result => exact fun db own _ hown => absurd hown (h db own)
  | statement run next ih =>
      refine ⟨fun _ _ _ => False, fun _ => stable_own fun _ => False, ?_, ?_, ?_⟩
      · exact fun db own _ _ hown => absurd hown (h db own)
      · exact fun db own _ _ _ hown => absurd hown (h db own)
      · exact fun value => ih value fun _ _ => not_false

end Outcome

/-! ## Scripts -/

variable (d)

/-- Each transaction of the script fails on its own only where `bad` holds; the first one starts
with what is known. -/
def Fails (bad : ε → σ → List ω → Prop) (know : σ → Prop) : Script σ ω ν τ ε β → Prop
  | .finished _ => True
  | .perform act next => ∀ env, Fails bad know (next (act env).1)
  | .transaction (α := α) body next =>
      (∃ post : α → σ → List ω → Prop,
        d.Outcome bad (fun db own => know db ∧ own = []) body post) ∧
          ∀ result, Fails bad (fun _ => True) (next result)

/-- The call goes on to fail only where `bad` holds. -/
def Spares (bad : ε → σ → List ω → Prop) (db : σ) : Call σ ω ν τ ε β → Prop
  | .between script => ∃ know : σ → Prop, d.Lasting know ∧ know db ∧ d.Fails bad know script
  | .inside (α := α) own body next =>
      (∃ (pre : σ → List ω → Prop) (post : α → σ → List ω → Prop),
        d.Stable pre ∧ pre db own ∧ d.Outcome bad pre body post) ∧
          ∀ result, d.Fails bad (fun _ => True) (next result)
  | .crashed => True

variable {d} {bad : ε → σ → List ω → Prop}

theorem Spares.of_commit {db : σ} {theirs : List ω} {call : Call σ ω ν τ ε β}
    (h : d.Spares bad db call) (hdb : d.invariant db) (hpermits : d.permits db theirs)
    (hfree : Free store theirs call.own) : d.Spares bad (store.view db theirs) call := by
  cases call with
  | crashed => trivial
  | between script =>
      obtain ⟨know, hlasting, hknow, hfails⟩ := h
      exact ⟨know, hlasting, hlasting db theirs hdb hknow hpermits, hfails⟩
  | inside own body next =>
      obtain ⟨⟨pre, post, hstable, hpre, houtcome⟩, hnext⟩ := h
      exact ⟨⟨pre, post, hstable, hstable db own theirs hdb hpre hpermits hfree, houtcome⟩, hnext⟩

theorem Fails.between {db : σ} {script : Script σ ω ν τ ε β}
    (h : d.Fails bad (fun _ => True) script) : d.Spares bad db (.between script) :=
  ⟨_, lasting_true, trivial, h⟩

/-- What is known weakens. -/
theorem Fails.weaken {know know' : σ → Prop} {script : Script σ ω ν τ ε β}
    (h : d.Fails bad know script) (hknow : ∀ db, d.invariant db → know' db → know db) :
    d.Fails bad know' script := by
  induction script with
  | finished result => trivial
  | perform act next ih => exact fun env => ih _ (h env)
  | transaction body next _ =>
      obtain ⟨⟨post, houtcome⟩, hnext⟩ := h
      exact ⟨⟨post, houtcome.weaken fun db own hdb hown => ⟨hknow db hdb hown.1, hown.2⟩⟩, hnext⟩

theorem Outcome.imp {bad' : ε → σ → List ω → Prop}
    {pre : σ → List ω → Prop} {post : β → σ → List ω → Prop} {program : Program σ ω ε β}
    (h : d.Outcome bad pre program post)
    (hbad : ∀ error db own, bad error db own → bad' error db own) :
    d.Outcome bad' pre program post := by
  induction program generalizing pre with
  | done result => exact h
  | statement run next ih =>
      obtain ⟨mid, hstable, hfail, hrun, hnext⟩ := h
      exact ⟨mid, hstable,
        fun db own error hdb hown hresult => hbad _ _ _ (hfail db own error hdb hown hresult), hrun,
        fun value => ih value (hnext value)⟩

theorem Fails.mono {bad' : ε → σ → List ω → Prop} {know : σ → Prop}
    {script : Script σ ω ν τ ε β} (h : d.Fails bad know script)
    (hbad : ∀ error db own, bad error db own → bad' error db own) : d.Fails bad' know script := by
  induction script generalizing know with
  | finished result => trivial
  | perform act next ih => exact fun env => ih _ (h env)
  | transaction body next ih =>
      obtain ⟨⟨post, houtcome⟩, hnext⟩ := h
      exact ⟨⟨post, houtcome.imp hbad⟩, fun result => ih result (hnext result)⟩

theorem Outcome.of_tightens {d' : Discipline store} (h : Tightens d d')
    {pre : σ → List ω → Prop} {post : β → σ → List ω → Prop} {program : Program σ ω ε β}
    (houtcome : d.Outcome bad pre program post) : d'.Outcome bad pre program post := by
  induction program generalizing pre with
  | done result => exact fun db own hdb hown => houtcome db own (h.invariant ▸ hdb) hown
  | statement run next ih =>
      obtain ⟨mid, hstable, hfail, hrun, hnext⟩ := houtcome
      refine ⟨mid, fun value db own theirs hdb hown hpermits hfree => ?_,
        fun db own error hdb => hfail db own error (h.invariant ▸ hdb),
        fun db own new value hdb => hrun db own new value (h.invariant ▸ hdb),
        fun value => ih value (hnext value)⟩
      have hinvariant := h.invariant ▸ hdb
      exact hstable value db own theirs hinvariant hown (h.permits db theirs hinvariant hpermits)
        hfree

theorem Fails.of_tightens {d' : Discipline store} (h : Tightens d d') {know : σ → Prop}
    {script : Script σ ω ν τ ε β} (hfails : d.Fails bad know script) :
    d'.Fails bad know script := by
  induction script generalizing know with
  | finished result => trivial
  | perform act next ih => exact fun env => ih _ (hfails env)
  | transaction body next ih =>
      obtain ⟨⟨post, houtcome⟩, hnext⟩ := hfails
      exact ⟨⟨post, houtcome.of_tightens h⟩, fun result => ih result (hnext result)⟩

end Discipline

/-! ## Runs -/

/-- The error with which the next statement of a call ends its transaction. -/
def Call.failing (store : Store σ ω) (db : σ) : Call σ ω ν τ ε β → Option ε
  | .inside own (.statement run _) _ =>
      match run (store.view db own) with
      | .error error => some error
      | .ok _ => none
  | .inside _ (.done _) _ | .between _ | .crashed => none

/-- The error with which a step ends a transaction that the database has not failed. -/
def Calls.failing (store : Store σ ω) (s : Calls σ ω ν τ ε β) : CallLabel ω ν ε κ → Option ε
  | .advance i _ => s.calls[i]?.bind (Call.failing store s.committed)
  | .begin _ | .fail _ _ | .crash _ | .outside _ => none

/-- The uncommitted writes of the call with a number. -/
def Calls.ownOf (s : Calls σ ω ν τ ε β) (i : Nat) : List ω := s.calls[i]?.elim [] Call.own

theorem Calls.mem_ownOf_of_committing {s : Calls σ ω ν τ ε β} {i : Nat} {env : ν} {w : ω}
    (h : w ∈ s.committing (.advance i env : CallLabel ω ν ε κ)) : w ∈ s.ownOf i := by
  rw [Calls.committing] at h
  rw [Calls.ownOf]
  cases hcall : s.calls[i]? with
  | none =>
      rw [hcall] at h
      cases h
  | some call =>
      rw [hcall] at h
      cases call with
      | between script => cases h
      | crashed => cases h
      | inside own body rest =>
          cases body with
          | done result => exact h
          | statement run after => cases h

namespace Roles

variable {r : Roles store}

/-- Each call goes on to fail only where it may. -/
def Spared (r : Roles store) (bad : Nat → ε → σ → List ω → Prop) (s : Calls σ ω ν τ ε β) : Prop :=
  ∀ i call, s.calls[i]? = some call → (r.discipline i).Spares (bad i) s.committed call

variable {bad : Nat → ε → σ → List ω → Prop} {s next : Calls σ ω ν τ ε β}
  {script : κ → Script σ ω ν τ ε β} {permitted : σ → List ω → Bool}

theorem Spared.set (h : r.Spared bad s) (i : Nat) {call : Call σ ω ν τ ε β}
    (hcall : (r.discipline i).Spares (bad i) s.committed call) : r.Spared bad (s.set i call) := by
  intro j other hother
  change (s.calls.set i call)[j]? = some other at hother
  rw [List.getElem?_set] at hother
  split at hother
  · rename_i hij
    subst hij
    split at hother
    · cases hother
      exact hcall
    · cases hother
  · exact h j other hother

theorem Spared.step (hsymm : ∀ w w', store.clash w w' = store.clash w' w) (hfit : r.Fit)
    (hpermitted : ∀ i db writes, r.invariant db → permitted db writes = true → r.rely i db writes)
    (hheld : r.Held s) (h : r.Spared bad s) {label : CallLabel ω ν ε κ}
    (hbegun : ∀ call, label = .begin call → (r.discipline s.calls.length).Fails
      (bad s.calls.length) (r.start s.calls.length) (script call))
    (hstep : Calls.step store script permitted s label = some next) : r.Spared bad next := by
  cases callStep_cases hstep with
  | begin call =>
      intro i other hother
      change (s.calls ++ [Call.between (script call)])[i]? = some other at hother
      rw [List.getElem?_append] at hother
      split at hother
      · exact h i other hother
      · rename_i hi
        obtain ⟨hlast, hsame⟩ := List.getElem?_eq_some_iff.mp hother
        rw [List.length_singleton] at hlast
        obtain rfl : i = s.calls.length := by omega
        rw [List.getElem_singleton] at hsame
        subst hsame
        refine ⟨r.start s.calls.length, ?_, hheld.waits _ (Nat.le_refl _), hbegun call rfl⟩
        exact fun db writes hdb hstart hrely => r.begins _ db writes hdb hstart hrely
  | perform i env act rest hcall =>
      obtain ⟨know, hlasting, hknow, hfails⟩ := h i _ hcall
      have hspares : (r.discipline i).Spares (bad i) s.committed (.between (rest (act env).1)) :=
        ⟨know, hlasting, hknow, hfails env⟩
      exact h.set i hspares
  | «open» i env body rest hcall =>
      obtain ⟨know, hlasting, hknow, ⟨post, houtcome⟩, hrest⟩ := h i _ hcall
      exact h.set i ⟨⟨_, post,
        hlasting.stable.and (Discipline.stable_own fun own => own = []), ⟨hknow, rfl⟩, houtcome⟩,
        hrest⟩
  | statement i env own run body rest new value hcall hresult hfree =>
      obtain ⟨⟨pre, post, -, hpre, mid, hstable, -, hrun, hnext⟩, hrest⟩ := h i _ hcall
      exact h.set i ⟨⟨mid value, post, hstable value,
        hrun _ _ _ _ hheld.invariant hpre hresult, hnext value⟩, hrest⟩
  | commit i env own result rest hcall =>
      obtain ⟨-, hrest⟩ := h i _ hcall
      obtain ⟨know, pre, learn, post, -, ⟨-, hpre⟩, -, -, hbody, -⟩ := hheld.keeps i _ hcall
      obtain ⟨hmine, -⟩ := hbody _ _ hheld.invariant hpre
      intro j other hother
      change (s.calls.set i _)[j]? = some other at hother
      rw [List.getElem?_set] at hother
      split at hother
      · rename_i hij
        subst hij
        split at hother
        · cases hother
          exact (hrest (.ok result)).between
        · cases hother
      · rename_i hij
        have hrely := hfit i j s.committed own hij hheld.invariant hmine
        have hfree := hheld.apart i j _ _ hij hcall hother
        exact (h j other hother).of_commit hheld.invariant hrely hfree
  | rollBack i label own body rest error hcall =>
      obtain ⟨-, hrest⟩ := h i _ hcall
      exact h.set i (hrest (.error error)).between
  | crash i =>
      have hspares : (r.discipline i).Spares (bad i) s.committed (.crashed : Call σ ω ν τ ε β) :=
        trivial
      exact h.set i hspares
  | outside writes hallowed hfree =>
      intro i call hcall
      have hrely := hpermitted i s.committed writes hheld.invariant hallowed
      have hlocked := Discipline.free_of_locked hfree (List.mem_of_getElem? hcall)
      exact (h i call hcall).of_commit hheld.invariant hrely (hlocked.symm hsymm)

/-- A transaction that fails on its own. -/
theorem Spared.failing (h : r.Spared bad s) (hinvariant : r.invariant s.committed)
    {label : CallLabel ω ν ε κ} {error : ε} (hfailing : s.failing store label = some error) :
    ∃ i env, label = .advance i env ∧ bad i error s.committed (s.ownOf i) := by
  cases label with
  | begin call => cases hfailing
  | fail i error => cases hfailing
  | crash i => cases hfailing
  | outside writes => cases hfailing
  | advance i env =>
      obtain ⟨call, hcall, hfails⟩ := Option.bind_eq_some_iff.mp hfailing
      refine ⟨i, env, rfl, ?_⟩
      have hspares := h i call hcall
      have hown : s.ownOf i = call.own := by rw [Calls.ownOf, hcall, Option.elim_some]
      rw [hown]
      cases call with
      | between script => cases hfails
      | crashed => cases hfails
      | inside own body next =>
          cases body with
          | done result => cases hfails
          | statement run rest =>
              obtain ⟨⟨pre, post, -, hpre, mid, -, hfail, -⟩, -⟩ := hspares
              rw [Call.failing] at hfails
              split at hfails
              · rename_i hrun
                cases hfails
                exact hfail s.committed own _ hinvariant hpre hrun
              · cases hfails

end Roles

namespace CallRoles

variable {c : CallRoles store κ} {script : κ → Script σ ω ν τ ε β} {permitted : σ → List ω → Bool}

/-- The error of the call with a number. -/
def badOf (bad : κ → ε → σ → List ω → Prop) (begun : List κ) (i : Nat) (error : ε) (db : σ)
    (own : List ω) : Prop :=
  ∃ call, begun[i]? = some call ∧ bad call error db own

theorem fails_numbered {begun : List κ} {bad : κ → ε → σ → List ω → Prop} {i : Nat} {call : κ}
    (hcall : begun[i]? = some call) {script : Script σ ω ν τ ε β}
    (h : (c.discipline call).Fails (bad call) (c.start call) script) :
    ((c.numbered begun).discipline i).Fails (badOf bad begun i) ((c.numbered begun).start i)
      script := by
  have htightens : Discipline.Tightens (c.discipline call) ((c.numbered begun).discipline i) :=
    ⟨rfl, fun _ _ _ hpermits => hpermits.2 call hcall⟩
  refine Discipline.Fails.weaken (Discipline.Fails.mono
    (Discipline.Fails.of_tightens htightens h) fun _ _ _ hbad => ⟨call, hcall, hbad⟩) ?_
  exact fun db _ hstart => hstart call hcall

/-- Throughout a run each call keeps to its role and fails only where it may. -/
theorem spared_of_run {bad : κ → ε → σ → List ω → Prop}
    (hsymm : ∀ w w', store.clash w w' = store.clash w' w)
    (hpermitted : ∀ db writes, c.invariant db → permitted db writes = true →
      c.invariant (store.view db writes) ∧ ∀ call, c.rely call db writes)
    (before later : List (CallLabel ω ν ε κ)) {labels : List (CallLabel ω ν ε κ)}
    {s final : Calls σ ω ν τ ε β}
    (hfit : (begunCalls (before ++ labels ++ later)).Pairwise c.Fit)
    (hsound : ∀ call, .begin call ∈ labels →
      (∃ post, (c.discipline call).SoundAs (c.share call) (c.start call) (script call) post) ∧
        (c.discipline call).Fails (bad call) (c.start call) (script call))
    (hheld : (c.numbered (begunCalls (before ++ labels ++ later))).Held s)
    (h : (c.numbered (begunCalls (before ++ labels ++ later))).Spared
      (badOf bad (begunCalls (before ++ labels ++ later))) s)
    (hlength : s.calls.length = (begunCalls before).length)
    (hrun : (callMachine store script permitted).run s labels = some final) :
    (c.numbered (begunCalls (before ++ labels ++ later))).Held final ∧
      (c.numbered (begunCalls (before ++ labels ++ later))).Spared
        (badOf bad (begunCalls (before ++ labels ++ later))) final := by
  induction labels generalizing before s with
  | nil =>
      cases hrun
      exact ⟨hheld, h⟩
  | cons label labels ih =>
      obtain ⟨middle, hstep, hrest⟩ := Machine.run_cons_some _ hrun
      have hsplit : before ++ label :: labels = before ++ [label] ++ labels := by simp
      have hnumber : ∀ call, label = .begin call →
          (begunCalls (before ++ label :: labels ++ later))[s.calls.length]? = some call := by
        rintro call rfl
        rw [List.append_assoc, List.cons_append, begunCalls_append, hlength,
          List.getElem?_append_right (Nat.le_refl _), Nat.sub_self]
        rfl
      have hfirst : ∀ call, label = .begin call → .begin call ∈ label :: labels :=
        fun call hcall => hcall ▸ List.mem_cons_self
      obtain ⟨hmiddle, -⟩ := attributed_step hsymm hfit hpermitted hheld
        (fun call hcall => ⟨hnumber call hcall, (hsound call (hfirst call hcall)).1⟩) hstep
      have hspared := Roles.Spared.step hsymm (fit_numbered hfit)
        (fun i db writes hdb hallowed => ⟨(hpermitted db writes hdb hallowed).1,
          fun call _ => (hpermitted db writes hdb hallowed).2 call⟩) hheld h
        (fun call hcall => fails_numbered (hnumber call hcall) (hsound call (hfirst call hcall)).2)
        hstep
      rw [hsplit] at hmiddle hspared hfit ⊢
      refine ih (before ++ [label]) hfit
        (fun call hcall => hsound call (List.mem_cons_of_mem _ hcall)) hmiddle hspared ?_ hrest
      rw [length_calls_of_step hstep, begunCalls_append, List.length_append, hlength]

/-- Each transaction of a run that fails on its own is one of a call that may fail there. -/
theorem failing_of_run {bad : κ → ε → σ → List ω → Prop}
    (hsymm : ∀ w w', store.clash w w' = store.clash w' w)
    (hpermitted : ∀ db writes, c.invariant db → permitted db writes = true →
      c.invariant (store.view db writes) ∧ ∀ call, c.rely call db writes)
    {db : σ} (hdb : c.invariant db)
    {labels : List (CallLabel ω ν ε κ)} {label : CallLabel ω ν ε κ} {s : Calls σ ω ν τ ε β}
    {error : ε} (hstart : ∀ call, .begin call ∈ labels → c.start call db)
    (hfit : (begunCalls labels).Pairwise c.Fit)
    (hsound : ∀ call, .begin call ∈ labels →
      (∃ post, (c.discipline call).SoundAs (c.share call) (c.start call) (script call) post) ∧
        (c.discipline call).Fails (bad call) (c.start call) (script call))
    (hrun : (callMachine store script permitted).run { committed := db } labels = some s)
    (hfailing : s.failing store label = some error) :
    ∃ i env call, label = .advance i env ∧ (begunCalls labels)[i]? = some call ∧
      bad call error s.committed (s.ownOf i) := by
  have hlabels : ([] : List (CallLabel ω ν ε κ)) ++ labels ++ [] = labels := List.append_nil _
  obtain ⟨hheld, hspared⟩ := spared_of_run hsymm hpermitted [] []
    (by rwa [hlabels]) hsound (Roles.Held.start hdb fun _ call hcall => hstart call
      (mem_begunCalls.mp (hlabels ▸ List.mem_of_getElem? hcall)))
    (fun i call hcall => by cases hcall) rfl hrun
  obtain ⟨i, env, rfl, call, hcall, hbad⟩ := hspared.failing hheld.invariant hfailing
  rw [hlabels] at hcall
  exact ⟨i, env, call, rfl, hcall, hbad⟩

end CallRoles

end BrainCore.Foundation
