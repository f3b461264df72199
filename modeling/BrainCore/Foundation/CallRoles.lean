import BrainCore.Foundation.Attribution

/-!
# Roles of calls

What a call relies on and what it commits often depends on a name it has, such
as the id of its run.  When what each of two calls commits is what the other
relies on, every commit of a run is within the share of the call that makes it.
-/

namespace BrainCore.Foundation

variable {σ ω ν τ ε α β κ : Type} {store : Store σ ω}

namespace Discipline

variable {d d' : Discipline store} {pre : σ → List ω → Prop} {post : β → σ → List ω → Prop}
  {share know : σ → List ω → Prop}

/-! ## Relying on more -/

/-- Others commit only what `d` allows as well. -/
structure Tightens (d d' : Discipline store) : Prop where
  invariant : d'.invariant = d.invariant
  permits : ∀ db writes, d.invariant db → d'.permits db writes → d.permits db writes

theorem Lasting.of_tightens (h : Tightens d d') {fact : σ → Prop} (hfact : d.Lasting fact) :
    d'.Lasting fact := fun db writes hdb hholds hpermits =>
  have hinvariant := h.invariant ▸ hdb
  hfact db writes hinvariant hholds (h.permits db writes hinvariant hpermits)

theorem Triple.of_tightens (h : Tightens d d') {program : Program σ ω ε β}
    (htriple : d.Triple pre program post) : d'.Triple pre program post := by
  induction program generalizing pre with
  | done result => exact fun db own hdb hown => htriple db own (h.invariant ▸ hdb) hown
  | statement run next ih =>
      obtain ⟨mid, hstable, hrun, hnext⟩ := htriple
      refine ⟨mid, fun value db own theirs hdb hown hpermits hfree => ?_,
        fun db own new value hdb => hrun db own new value (h.invariant ▸ hdb),
        fun value => ih value (hnext value)⟩
      have hinvariant := h.invariant ▸ hdb
      exact hstable value db own theirs hinvariant hown (h.permits db theirs hinvariant hpermits)
        hfree

theorem Sound.of_tightens (h : Tightens d d') {start : σ → Prop} {after : β → σ → Prop}
    {script : Script σ ω ν τ ε β} (hscript : d.SoundAs share start script after) :
    d'.SoundAs share start script after := by
  induction script generalizing start with
  | finished result =>
      exact fun value hvalue db hdb hknow => hscript value hvalue db (h.invariant ▸ hdb) hknow
  | perform act next ih => exact fun env => ih _ (hscript env)
  | transaction body next ih =>
      obtain ⟨learn, hlearn, herror, hbody, hnext⟩ := hscript
      exact ⟨learn, fun result => (hlearn result).of_tightens h,
        fun error db hdb => herror error db (h.invariant ▸ hdb), Triple.of_tightens h hbody,
        fun result => ih result (hnext result)⟩

/-- A handler that needs to know nothing. -/
theorem Sound.catchAll {start : σ → Prop} {after : β → σ → Prop} {script : Script σ ω ν τ ε β}
    {handle : ε → Script σ ω ν τ ε β} (h : d.SoundAs share start script after)
    (hhandle : ∀ error, d.SoundAs share (fun _ => True) (handle error) after) :
    d.SoundAs share start (script.tryCatch handle) after := by
  induction script generalizing start with
  | finished result =>
      cases result with
      | ok value => exact h
      | error error => exact Sound.weaken (hhandle error) fun _ _ _ => trivial
  | perform act next ih => exact fun env => ih _ (h env)
  | transaction body next ih =>
      obtain ⟨learn, hlearn, herror, hbody, hnext⟩ := h
      exact ⟨learn, hlearn, herror, hbody, fun result => ih result (hnext result)⟩

end Discipline

/-! ## Roles by the call -/

/-- What a call relies on, what it commits, and what holds until it begins. -/
structure CallRoles (store : Store σ ω) (κ : Type) where
  invariant : σ → Prop
  rely : κ → σ → List ω → Prop
  share : κ → σ → List ω → Prop
  start : κ → σ → Prop
  relies : ∀ call db writes, invariant db → rely call db writes →
    invariant (store.view db writes)
  keeps : ∀ call db writes, invariant db → share call db writes →
    invariant (store.view db writes)
  begins : ∀ call db writes, invariant db → start call db → rely call db writes →
    start call (store.view db writes)

namespace CallRoles

variable (c : CallRoles store κ)

def discipline (call : κ) : Discipline store := ⟨c.invariant, c.rely call, c.relies call⟩

/-- Each of two calls relies on what the other commits. -/
def Fit (call other : κ) : Prop :=
  ∀ db writes, c.invariant db →
    (c.share call db writes → c.rely other db writes) ∧
      (c.share other db writes → c.rely call db writes)

/-- The roles of the calls that begin, by their numbers. -/
def numbered (begun : List κ) : Roles store where
  invariant := c.invariant
  rely i db writes := c.invariant (store.view db writes) ∧
    ∀ call, begun[i]? = some call → c.rely call db writes
  share := Discipline.shareOf c.share begun
  start i db := ∀ call, begun[i]? = some call → c.start call db
  relies _ _ _ _ h := h.1
  begins _ db writes hdb hstart hrely call hcall :=
    c.begins call db writes hdb (hstart call hcall) (hrely.2 call hcall)

variable {c} {begun : List κ} {script : κ → Script σ ω ν τ ε β} {permitted : σ → List ω → Bool}

theorem fit_numbered (hfit : begun.Pairwise c.Fit) : (c.numbered begun).Fit := by
  rintro i j db writes hne hdb ⟨call, hcall, hshare⟩
  refine ⟨c.keeps call db writes hdb hshare, fun other hother => ?_⟩
  obtain ⟨hi, rfl⟩ := List.getElem?_eq_some_iff.mp hcall
  obtain ⟨hj, rfl⟩ := List.getElem?_eq_some_iff.mp hother
  rw [List.pairwise_iff_getElem] at hfit
  rcases Nat.lt_or_gt_of_ne hne with hlt | hlt
  · exact (hfit i j hi hj hlt db writes hdb).1 hshare
  · exact (hfit j i hj hi hlt db writes hdb).2 hshare

theorem sound_numbered {i : Nat} {call : κ} (hcall : begun[i]? = some call)
    {script : Script σ ω ν τ ε β} {post : β → σ → Prop}
    (h : (c.discipline call).SoundAs (c.share call) (c.start call) script post) :
    ((c.numbered begun).discipline i).SoundAs ((c.numbered begun).share i)
      ((c.numbered begun).start i) script post := by
  have htightens : Discipline.Tightens (c.discipline call) ((c.numbered begun).discipline i) :=
    ⟨rfl, fun _ _ _ hpermits => hpermits.2 call hcall⟩
  refine Discipline.Sound.weaken (Discipline.Sound.widen
    (Discipline.Sound.of_tightens htightens h)
    fun _ _ _ hmine => ⟨call, hcall, hmine⟩) ?_
  exact fun db _ hstart => hstart call hcall

/-- One step of a run. -/
theorem attributed_step (hsymm : ∀ w w', store.clash w w' = store.clash w' w)
    (hfit : begun.Pairwise c.Fit)
    (hpermitted : ∀ db writes, c.invariant db → permitted db writes = true →
      c.invariant (store.view db writes) ∧ ∀ call, c.rely call db writes)
    {s next : Calls σ ω ν τ ε β} (h : (c.numbered begun).Held s) {label : CallLabel ω ν ε κ}
    (hbegun : ∀ call, label = .begin call → begun[s.calls.length]? = some call ∧
      ∃ post, (c.discipline call).SoundAs (c.share call) (c.start call) (script call) post)
    (hstep : Calls.step store script permitted s label = some next) :
    (c.numbered begun).Held next ∧
      Discipline.Attributed store c.share permitted begun s.committed next.committed label := by
  obtain ⟨hnext, hchange⟩ := h.step hsymm (fit_numbered hfit)
    (fun _ db writes hdb hallowed =>
      ⟨(hpermitted db writes hdb hallowed).1,
        fun call _ => (hpermitted db writes hdb hallowed).2 call⟩)
    (fun call hcall => by
      obtain ⟨hnumber, post, hsound⟩ := hbegun call hcall
      exact ⟨post, sound_numbered hnumber hsound⟩) hstep
  refine ⟨hnext, ?_⟩
  obtain hsame | ⟨i, env, writes, rfl, ⟨call, hcall, hmine⟩, hview⟩ |
    ⟨writes, rfl, hallowed, hview⟩ := hchange
  · exact .quiet hsame
  · exact .own hcall hmine hview
  · exact .outside hallowed hview

/-- The roles are kept throughout a run. -/
theorem held_of_run (hsymm : ∀ w w', store.clash w w' = store.clash w' w)
    (hpermitted : ∀ db writes, c.invariant db → permitted db writes = true →
      c.invariant (store.view db writes) ∧ ∀ call, c.rely call db writes)
    (before later : List (CallLabel ω ν ε κ)) {labels : List (CallLabel ω ν ε κ)}
    {s final : Calls σ ω ν τ ε β}
    (hfit : (begunCalls (before ++ labels ++ later)).Pairwise c.Fit)
    (hsound : ∀ call, .begin call ∈ labels →
      ∃ post, (c.discipline call).SoundAs (c.share call) (c.start call) (script call) post)
    (h : (c.numbered (begunCalls (before ++ labels ++ later))).Held s)
    (hlength : s.calls.length = (begunCalls before).length)
    (hrun : (callMachine store script permitted).run s labels = some final) :
    (c.numbered (begunCalls (before ++ labels ++ later))).Held final ∧
      final.calls.length = (begunCalls (before ++ labels)).length := by
  induction labels generalizing before s with
  | nil =>
      cases hrun
      rw [List.append_nil]
      rw [List.append_nil] at h
      exact ⟨h, hlength⟩
  | cons label labels ih =>
      obtain ⟨middle, hstep, hrest⟩ := Machine.run_cons_some _ hrun
      have hsplit : before ++ label :: labels = before ++ [label] ++ labels := by simp
      have hnumber : ∀ call, label = .begin call →
          (begunCalls (before ++ label :: labels ++ later))[s.calls.length]? = some call := by
        rintro call rfl
        rw [List.append_assoc, List.cons_append, begunCalls_append, hlength,
          List.getElem?_append_right (Nat.le_refl _), Nat.sub_self]
        rfl
      obtain ⟨hmiddle, -⟩ := attributed_step hsymm hfit hpermitted h
        (fun call hcall => ⟨hnumber call hcall, hsound call (hcall ▸ List.mem_cons_self)⟩) hstep
      rw [hsplit] at hmiddle hfit ⊢
      refine ih (before ++ [label]) hfit
        (fun call hcall => hsound call (List.mem_cons_of_mem _ hcall)) hmiddle ?_ hrest
      rw [length_calls_of_step hstep, begunCalls_append, List.length_append, hlength]

/-- Each step of a run changes the committed database within the share of the call that goes on,
and the invariant holds before and after it. -/
theorem attributed_of_run (hsymm : ∀ w w', store.clash w w' = store.clash w' w)
    (hpermitted : ∀ db writes, c.invariant db → permitted db writes = true →
      c.invariant (store.view db writes) ∧ ∀ call, c.rely call db writes)
    {db : σ} (hdb : c.invariant db)
    {labels : List (CallLabel ω ν ε κ)} {label : CallLabel ω ν ε κ} {s next : Calls σ ω ν τ ε β}
    (hstart : ∀ call, .begin call ∈ labels ++ [label] → c.start call db)
    (hfit : (begunCalls (labels ++ [label])).Pairwise c.Fit)
    (hsound : ∀ call, .begin call ∈ labels ++ [label] →
      ∃ post, (c.discipline call).SoundAs (c.share call) (c.start call) (script call) post)
    (hrun : (callMachine store script permitted).run { committed := db } labels = some s)
    (hstep : (callMachine store script permitted).step s label = some next) :
    c.invariant s.committed ∧ c.invariant next.committed ∧
      Discipline.Attributed store c.share permitted (begunCalls (labels ++ [label])) s.committed
        next.committed label := by
  obtain ⟨hbefore, hlength⟩ := held_of_run hsymm hpermitted [] [label] hfit
    (fun call hcall => hsound call (List.mem_append_left _ hcall))
    (Roles.Held.start hdb fun _ call hcall =>
      hstart call (mem_begunCalls.mp (List.mem_of_getElem? hcall))) rfl hrun
  rw [List.nil_append] at hbefore hlength
  obtain ⟨hafter, hattributed⟩ := attributed_step hsymm hfit hpermitted hbefore
    (fun call hcall => by
      subst hcall
      refine ⟨?_, hsound call (List.mem_append_right _ List.mem_cons_self)⟩
      rw [begunCalls_append, hlength, List.getElem?_append_right (Nat.le_refl _), Nat.sub_self]
      rfl) hstep
  exact ⟨hbefore.invariant, hafter.invariant, hattributed⟩

/-- What a step of a run commits is nothing, or within the share of the call that goes on, or
another component's. -/
theorem committing_of_run (hsymm : ∀ w w', store.clash w w' = store.clash w' w)
    (hpermitted : ∀ db writes, c.invariant db → permitted db writes = true →
      c.invariant (store.view db writes) ∧ ∀ call, c.rely call db writes)
    {db : σ} (hdb : c.invariant db)
    {labels : List (CallLabel ω ν ε κ)} {label : CallLabel ω ν ε κ} {s next : Calls σ ω ν τ ε β}
    (hstart : ∀ call, .begin call ∈ labels → c.start call db)
    (hfit : (begunCalls labels).Pairwise c.Fit)
    (hsound : ∀ call, .begin call ∈ labels →
      ∃ post, (c.discipline call).SoundAs (c.share call) (c.start call) (script call) post)
    (hrun : (callMachine store script permitted).run { committed := db } labels = some s)
    (hstep : (callMachine store script permitted).step s label = some next) :
    c.invariant s.committed ∧ next.committed = store.view s.committed (s.committing label) ∧
      (s.committing label = [] ∨
        (∃ i env call, label = .advance i env ∧ (begunCalls labels)[i]? = some call ∧
          c.share call s.committed (s.committing label)) ∨
        ∃ writes, label = .outside writes ∧ permitted s.committed (s.committing label) = true) := by
  have hlabels : ([] : List (CallLabel ω ν ε κ)) ++ labels ++ [] = labels := List.append_nil _
  obtain ⟨hheld, -⟩ := held_of_run hsymm hpermitted [] [] (by rwa [hlabels]) hsound
    (Roles.Held.start hdb fun _ call hcall =>
      hstart call (mem_begunCalls.mp (hlabels ▸ List.mem_of_getElem? hcall))) rfl hrun
  rw [hlabels] at hheld
  refine ⟨hheld.invariant, committed_of_step hstep, ?_⟩
  cases label with
  | begin call => exact .inl rfl
  | fail i error => exact .inl rfl
  | crash i => exact .inl rfl
  | outside writes =>
      change Calls.step store script permitted s (.outside writes) = some next at hstep
      rw [Calls.step] at hstep
      split at hstep
      · rename_i hallowed
        rw [Bool.and_eq_true] at hallowed
        exact .inr (.inr ⟨writes, rfl, hallowed.1⟩)
      · cases hstep
  | advance i env =>
      obtain ⟨call, hcall, -⟩ := Option.bind_eq_some_iff.mp hstep
      have hcommitting : s.committing (.advance i env : CallLabel ω ν ε κ) = call.finishing := by
        rw [Calls.committing, hcall]
        rfl
      rw [hcommitting]
      have hkeeps := hheld.keeps i call hcall
      cases call with
      | crashed => exact .inl rfl
      | between rest => exact .inl rfl
      | inside own body rest =>
          cases body with
          | statement run after => exact .inl rfl
          | done result =>
              obtain ⟨know, pre, learn, post, -, ⟨-, hpre⟩, -, -, hbody, -⟩ := hkeeps
              obtain ⟨begun, hbegun, hmine⟩ := (hbody _ _ hheld.invariant hpre).1
              exact .inr (.inl ⟨i, env, begun, rfl, hbegun, hmine⟩)

end CallRoles

/-! ## One discipline for all -/

namespace Discipline

variable {d : Discipline store} {script : κ → Script σ ω ν τ ε β}
  {permitted : σ → List ω → Bool} {share : κ → σ → List ω → Prop}

/-- Calls that all rely on one discipline. -/
def callRoles (d : Discipline store) (share : κ → σ → List ω → Prop)
    (hshare : ∀ call, d.Within (share call)) : CallRoles store κ where
  invariant := d.invariant
  rely _ := d.permits
  share := share
  start _ _ := True
  relies _ := d.keeps
  keeps call db writes hdb hmine := d.keeps db writes hdb (hshare call db writes hdb hmine)
  begins _ _ _ _ _ _ := trivial

/-- Each step of a run changes the committed database within the share of the call that goes on,
and the invariant holds before and after it. -/
theorem attributed_of_run (hsymm : ∀ w w', store.clash w w' = store.clash w' w)
    (hshare : ∀ call, d.Within (share call))
    (hpermitted : ∀ db writes, d.invariant db → permitted db writes = true → d.permits db writes)
    {db : σ} (hdb : d.invariant db) {labels : List (CallLabel ω ν ε κ)}
    {label : CallLabel ω ν ε κ} {s next : Calls σ ω ν τ ε β}
    (hsound : ∀ call, .begin call ∈ labels ++ [label] →
      ∃ post, d.SoundAs (share call) (fun _ => True) (script call) post)
    (hrun : (callMachine store script permitted).run { committed := db } labels = some s)
    (hstep : (callMachine store script permitted).step s label = some next) :
    d.invariant s.committed ∧ d.invariant next.committed ∧
      Attributed store share permitted (begunCalls (labels ++ [label])) s.committed
        next.committed label :=
  CallRoles.attributed_of_run (c := d.callRoles share hshare) hsymm
    (fun db writes hdb hallowed =>
      have hpermits := hpermitted db writes hdb hallowed
      ⟨d.keeps db writes hdb hpermits, fun _ => hpermits⟩)
    hdb (fun _ _ => trivial)
    (List.pairwise_of_forall fun call other db writes hdb =>
      ⟨hshare call db writes hdb, hshare other db writes hdb⟩)
    hsound hrun hstep

end Discipline

end BrainCore.Foundation
