import BrainCore.Execution.RedactionSafety

/-!
# Two payloads redacted

Two payloads that differ under sensitive keys are assigned the same names, so
the properties of their clones agree when the values that stay do.
-/

namespace BrainCore.Execution

open BrainCore.Foundation

section Walk

variable {platform : RedactionPlatform} {policy : RedactionPolicy} {tenantHashKey : String}
  {keep : String → Option Json}

/-! ## Assignments and properties -/

/-- The assignment of a value that stays. -/
structure Kept (key : String) (value : Option Json) (later : Assignments) : Prop where
  defined : value ≠ none
  own : key ≠ "__proto__"
  last : key ∉ later.map Prod.fst

theorem properties_of_kept {key : String} {value : Json} {later : Assignments}
    (h : Kept key (some value) later) :
    properties ((key, some value) :: later) = (key, value) :: properties later := by
  rw [properties, if_neg (not_or.mpr ⟨h.own, h.last⟩)]
  rfl

theorem properties_of_not_kept {key : String} {value : Option Json} {later : Assignments}
    (h : ¬Kept key value later) : properties ((key, value) :: later) = properties later := by
  rw [properties]
  split
  · rfl
  · rename_i hshown
    obtain ⟨hown, hlast⟩ := not_or.mp hshown
    cases value with
    | none => rfl
    | some value => exact absurd ⟨Option.some_ne_none _, hown, hlast⟩ h

theorem mem_of_mem_properties {key : String} {value : Json} {writes : Assignments}
    (h : (key, value) ∈ properties writes) : (key, some value) ∈ writes := by
  induction writes with
  | nil => cases h
  | cons write later ih =>
      obtain ⟨name, assigned⟩ := write
      rw [properties] at h
      split at h
      · exact List.mem_cons_of_mem _ (ih h)
      · rcases List.mem_append.mp h with hown | hlater
        · cases assigned with
          | none => cases hown
          | some written =>
              cases List.mem_singleton.mp hown
              exact List.mem_cons_self
        · exact List.mem_cons_of_mem _ (ih hlater)

/-- Two lists of assignments that begin with one key give the same properties when what is kept of
the two values is the same and the rest gives the same; a key that is assigned later on one side
only is assigned no value there. -/
theorem properties_cons_iff {key : String} {value value' : Option Json} {later later' : Assignments}
    (digest : key ∉ later'.map Prod.fst → ∀ v, (key, some v) ∉ later)
    (digest' : key ∉ later.map Prod.fst → ∀ v, (key, some v) ∉ later') :
    properties ((key, value) :: later) = properties ((key, value') :: later') ↔
      ((Kept key value later ↔ Kept key value' later') ∧ (Kept key value later → value = value')) ∧
        properties later = properties later' := by
  by_cases hkept : Kept key value later <;> by_cases hkept' : Kept key value' later'
  · obtain ⟨v, rfl⟩ := Option.ne_none_iff_exists'.mp hkept.defined
    obtain ⟨v', rfl⟩ := Option.ne_none_iff_exists'.mp hkept'.defined
    rw [properties_of_kept hkept, properties_of_kept hkept', List.cons.injEq, Prod.mk.injEq]
    simp [hkept, hkept']
  · obtain ⟨v, rfl⟩ := Option.ne_none_iff_exists'.mp hkept.defined
    rw [properties_of_kept hkept, properties_of_not_kept hkept']
    refine iff_of_false (fun heq => ?_) fun h => hkept' (h.1.1.mp hkept)
    have hmem : (key, v) ∈ properties later' := heq ▸ List.mem_cons_self
    exact digest' hkept.last v (mem_of_mem_properties hmem)
  · obtain ⟨v', rfl⟩ := Option.ne_none_iff_exists'.mp hkept'.defined
    rw [properties_of_not_kept hkept, properties_of_kept hkept']
    refine iff_of_false (fun heq => ?_) fun h => hkept (h.1.1.mpr hkept')
    have hmem : (key, v') ∈ properties later := heq ▸ List.mem_cons_self
    exact digest hkept'.last v' (mem_of_mem_properties hmem)
  · rw [properties_of_not_kept hkept, properties_of_not_kept hkept']
    simp [hkept, hkept']

/-! ## Digests left out -/

section Clear

variable (platform) (policy) (tenantHashKey)

/-- What is assigned for the fields, digests left out. -/
abbrev clearAssignments (members : List (String × Json)) : Except String Assignments :=
  assignments platform policy tenantHashKey (fun _ => none) members

variable {platform} {policy} {tenantHashKey}

theorem clearAssignments_cons {key : String} {value : Json} {rest : List (String × Json)}
    {writes : Assignments}
    (h : clearAssignments platform policy tenantHashKey ((key, value) :: rest) = .ok writes) :
    ∃ own later, assigned platform policy tenantHashKey (fun _ => none) key value
        (withoutDigests platform policy tenantHashKey value) = .ok own ∧
      clearAssignments platform policy tenantHashKey rest = .ok later ∧ writes = own ++ later := by
  unfold clearAssignments at h
  rw [assignments] at h
  obtain ⟨own, hown, htail⟩ := bind_ok.mp h
  obtain ⟨later, hlater, hwrites⟩ := bind_ok.mp htail
  exact ⟨own, later, hown, hlater, (pure_ok.mp hwrites).symm⟩

/-- The names that are assigned. -/
theorem mem_names_iff {members : List (String × Json)} {writes : Assignments} {name : String}
    (h : clearAssignments platform policy tenantHashKey members = .ok writes) :
    name ∈ writes.map Prod.fst ↔
      ∃ member ∈ members, assignedName platform policy member.1 member.2 = some name := by
  induction members generalizing writes with
  | nil =>
      cases h
      simp
  | cons member rest ih =>
      obtain ⟨own, later, hown, hlater, rfl⟩ := clearAssignments_cons h
      rw [List.map_append, List.mem_append, assigned_names hown, ih hlater]
      simp only [List.mem_cons, exists_eq_or_imp, Option.mem_toList]

/-- What is assigned for a field without its digest. -/
theorem clear_assigned_some {key name : String} {value v : Json} {redacted : Except String Json}
    {own : Assignments}
    (h : assigned platform policy tenantHashKey (fun _ => none) key value redacted = .ok own)
    (hmem : (name, some v) ∈ own) :
    name = key ∧ (treatment platform policy key = .walked ∨
      treatment platform policy key = .masked ∨ treatment platform policy key = .hashed) := by
  rw [assigned_eq] at h
  cases htreatment : treatment platform policy key with
  | walked =>
      rw [htreatment] at h
      obtain ⟨out, -, rfl⟩ := map_ok.mp h
      cases List.mem_singleton.mp hmem
      exact ⟨rfl, .inl rfl⟩
  | masked =>
      rw [htreatment] at h
      cases h
      cases List.mem_singleton.mp hmem
      exact ⟨rfl, .inr (.inl rfl)⟩
  | hashed =>
      rw [htreatment] at h
      cases h
      exact ⟨(Prod.mk.inj (List.mem_singleton.mp hmem)).1, .inr (.inr rfl)⟩
  | dropped rule =>
      rw [htreatment] at h
      cases h
      cases value with
      | str text =>
          unfold droppedValue at hmem
          dsimp only at hmem
          split at hmem
          · cases List.mem_singleton.mp hmem
          · cases hmem
      | _ => cases hmem
  | omitted =>
      rw [htreatment] at h
      cases h
      cases List.mem_singleton.mp hmem
  | forbidden =>
      rw [htreatment] at h
      cases h

theorem keys_eq {members members' : List (String × Json)}
    (h : OnlySensitiveMembers platform policy members members') :
    members.map Prod.fst = members'.map Prod.fst := by
  induction members generalizing members' with
  | nil => rw [show _ = [] from h]
  | cons member rest ih =>
      obtain ⟨value', rest', rfl, -, hrest⟩ := h
      exact congrArg (member.1 :: ·) (ih hrest)

/-- A value that is assigned on one side has its name assigned on the other. -/
theorem named_of_valued {members members' : List (String × Json)} {writes writes' : Assignments}
    (keys : members.map Prod.fst = members'.map Prod.fst)
    (h : clearAssignments platform policy tenantHashKey members = .ok writes)
    (h' : clearAssignments platform policy tenantHashKey members' = .ok writes')
    {name : String} {v : Json} (hmem : (name, some v) ∈ writes) : name ∈ writes'.map Prod.fst := by
  induction members generalizing members' writes writes' with
  | nil =>
      cases h
      cases hmem
  | cons member rest ih =>
      obtain ⟨key, value⟩ := member
      cases members' with
      | nil => cases keys
      | cons member' rest' =>
          obtain ⟨key', value'⟩ := member'
          obtain ⟨rfl, hrest⟩ := List.cons.inj keys
          obtain ⟨own, later, hown, hlater, rfl⟩ := clearAssignments_cons h
          obtain ⟨own', later', hown', hlater', rfl⟩ := clearAssignments_cons h'
          rw [List.map_append, List.mem_append]
          rcases List.mem_append.mp hmem with hin | hin
          · obtain ⟨rfl, htreatment⟩ := clear_assigned_some hown hin
            refine .inl ?_
            rw [assigned_names hown', assignedName]
            rcases htreatment with htreatment | htreatment | htreatment <;> simp [htreatment]
          · exact .inr (ih hrest hlater hlater' hin)

/-- The assignment of a field is kept when its value shows. -/
theorem kept_iff_shows {key : String} {value : Json} {assignedValue : Option Json}
    {rest : List (String × Json)} {later : Assignments}
    (hlater : clearAssignments platform policy tenantHashKey rest = .ok later)
    (hvalue : assignedValue ≠ none ↔ StoredInClear platform policy key value) :
    Kept key assignedValue later ↔ Shows platform policy key value rest := by
  have hlast : key ∉ later.map Prod.fst ↔
      ∀ member ∈ rest, assignedName platform policy member.1 member.2 ≠ some key := by
    rw [mem_names_iff hlater]
    simp
  constructor
  · exact fun h => ⟨hvalue.mp h.defined, h.own, hlast.mp h.last⟩
  · exact fun h => ⟨hvalue.mpr h.clear, h.own, hlast.mpr h.last⟩

theorem not_shows {key : String} {value : Json} {rest : List (String × Json)}
    (h : ¬StoredInClear platform policy key value) : ¬Shows platform policy key value rest :=
  fun hshows => h hshows.clear

/-- What a field that is not stored in clear leaves. -/
theorem properties_of_unclear {key : String} {value : Json} {redacted : Except String Json}
    {own : Assignments} (later : Assignments)
    (h : assigned platform policy tenantHashKey (fun _ => none) key value redacted = .ok own)
    (hunclear : treatment platform policy key = .omitted ∨
      ∃ rule, treatment platform policy key = .dropped rule) :
    properties (own ++ later) = properties later := by
  have hempty : ∀ name, properties ((name, none) :: later) = properties later :=
    fun name => properties_of_not_kept fun hkept => hkept.defined rfl
  rw [assigned_eq] at h
  rcases hunclear with homitted | ⟨rule, hdropped⟩
  · rw [homitted] at h
    cases h
    exact hempty key
  · rw [hdropped] at h
    cases h
    cases value with
    | str text =>
        unfold droppedValue
        dsimp only
        split
        · exact hempty _
        · rfl
    | _ => rfl

/-- Values that may differ below sensitive keys only are masked alike when they are equal. -/
theorem maskedValue_inj {value value' : Json} (h : OnlySensitive platform policy value value') :
    maskedValue value = maskedValue value' ↔ value = value' := by
  refine ⟨fun heq => ?_, fun heq => heq ▸ rfl⟩
  cases value with
  | arr items =>
      obtain ⟨items', rfl, -⟩ := h
      exact heq
  | obj members =>
      obtain ⟨members', rfl, -⟩ := h
      exact heq
  | _ => exact Eq.symm h

theorem hashedValue_ne_none {value : Json} :
    hashedValue platform tenantHashKey (fun _ => none) value ≠ none ↔ ∀ text, value ≠ .str text := by
  cases value <;> simp [hashedValue]

theorem hashedValue_of_clear {value : Json} (h : ∀ text, value ≠ .str text) :
    hashedValue platform tenantHashKey (fun _ => none) value = some value := by
  cases value with
  | str text => exact absurd rfl (h text)
  | _ => rfl

/-! ## What tells two payloads apart -/

mutual

/-- Two payloads that differ under sensitive keys only are stored alike, beside digests, exactly
when the second is scrubbed where the walk gets to. -/
theorem clear_iff : ∀ (payload other : Json), OnlySensitive platform policy payload other →
    ∀ out out', withoutDigests platform policy tenantHashKey payload = .ok out →
      withoutDigests platform policy tenantHashKey other = .ok out' →
        (out = out' ↔ Scrubbed platform policy payload other)
  | .null, _, h, out, out', hout, hout' => by
      rw [show _ = Json.null from h] at hout'
      exact iff_of_true (Except.ok.inj (hout.symm.trans hout')) trivial
  | .bool b, _, h, out, out', hout, hout' => by
      rw [show _ = Json.bool b from h] at hout'
      exact iff_of_true (Except.ok.inj (hout.symm.trans hout')) trivial
  | .num q, _, h, out, out', hout, hout' => by
      rw [show _ = Json.num q from h] at hout'
      exact iff_of_true (Except.ok.inj (hout.symm.trans hout')) trivial
  | .str text, _, h, out, out', hout, hout' => by
      rw [show _ = Json.str text from h] at hout'
      exact iff_of_true (Except.ok.inj (hout.symm.trans hout')) trivial
  | .arr items, _, h, out, out', hout, hout' => by
      obtain ⟨items', rfl, hitems⟩ := h
      unfold withoutDigests at hout hout'
      rw [redactWith] at hout hout'
      obtain ⟨outs, houts, rfl⟩ := map_ok.mp hout
      obtain ⟨outs', houts', rfl⟩ := map_ok.mp hout'
      rw [Json.arr.injEq, clearItems_iff items items' hitems outs outs' houts houts', Scrubbed]
      constructor
      · rintro hscrubbed _ heq
        cases heq
        exact hscrubbed
      · exact fun hscrubbed => hscrubbed items' rfl
  | .obj members, _, h, out, out', hout, hout' => by
      obtain ⟨members', rfl, hmembers⟩ := h
      unfold withoutDigests at hout hout'
      rw [redactWith] at hout hout'
      obtain ⟨writes, hwrites, rfl⟩ := map_ok.mp hout
      obtain ⟨writes', hwrites', rfl⟩ := map_ok.mp hout'
      rw [Json.obj.injEq,
        clearMembers_iff members members' hmembers writes writes' hwrites hwrites', Scrubbed]
      constructor
      · rintro hscrubbed _ heq
        cases heq
        exact hscrubbed
      · exact fun hscrubbed => hscrubbed members' rfl

theorem clearItems_iff : ∀ (items items' : List Json),
    OnlySensitiveItems platform policy items items' → ∀ outs outs',
      redactItems platform policy tenantHashKey (fun _ => none) items = .ok outs →
        redactItems platform policy tenantHashKey (fun _ => none) items' = .ok outs' →
          (outs = outs' ↔ ScrubbedItems platform policy items items')
  | [], _, h, outs, outs', houts, houts' => by
      rw [show _ = [] from h] at houts'
      exact iff_of_true (Except.ok.inj (houts.symm.trans houts')) trivial
  | value :: rest, _, h, outs, outs', houts, houts' => by
      obtain ⟨value', rest', rfl, hvalue, hrest⟩ := h
      rw [redactItems] at houts houts'
      obtain ⟨out, hout, htail⟩ := bind_ok.mp houts
      obtain ⟨later, hlater, hpure⟩ := bind_ok.mp htail
      obtain ⟨out', hout', htail'⟩ := bind_ok.mp houts'
      obtain ⟨later', hlater', hpure'⟩ := bind_ok.mp htail'
      cases pure_ok.mp hpure
      cases pure_ok.mp hpure'
      rw [List.cons.injEq, clear_iff value value' hvalue out out' hout hout',
        clearItems_iff rest rest' hrest later later' hlater hlater', ScrubbedItems]
      constructor
      · rintro hscrubbed _ _ heq
        cases heq
        exact hscrubbed
      · exact fun hscrubbed => hscrubbed value' rest' rfl

theorem clearMembers_iff : ∀ (members members' : List (String × Json)),
    OnlySensitiveMembers platform policy members members' → ∀ writes writes',
      clearAssignments platform policy tenantHashKey members = .ok writes →
        clearAssignments platform policy tenantHashKey members' = .ok writes' →
          (properties writes = properties writes' ↔
            ScrubbedMembers platform policy members members')
  | [], _, h, writes, writes', hwrites, hwrites' => by
      rw [show _ = [] from h] at hwrites'
      rw [Except.ok.inj (hwrites.symm.trans hwrites')]
      exact iff_of_true rfl trivial
  | (key, value) :: rest, _, h, writes, writes', hwrites, hwrites' => by
      obtain ⟨value', rest', rfl, hvalue, hrest⟩ := h
      obtain ⟨own, later, hown, hlater, rfl⟩ := clearAssignments_cons hwrites
      obtain ⟨own', later', hown', hlater', rfl⟩ := clearAssignments_cons hwrites'
      have htail := clearMembers_iff rest rest' hrest later later' hlater hlater'
      have hkeys := keys_eq hrest
      have hdigest (hnot : key ∉ later'.map Prod.fst) (v : Json) : (key, some v) ∉ later :=
        fun hmem => hnot (named_of_valued hkeys hlater hlater' hmem)
      have hdigest' (hnot : key ∉ later.map Prod.fst) (v : Json) : (key, some v) ∉ later' :=
        fun hmem => hnot (named_of_valued hkeys.symm hlater' hlater hmem)
      -- The head of `ScrubbedMembers`, for the fields of the two payloads.
      have hscrubbed : ScrubbedMembers platform policy ((key, value) :: rest)
            ((key, value') :: rest') ↔
          ((Shows platform policy key value rest ↔ Shows platform policy key value' rest') ∧
            (Shows platform policy key value rest →
              if treatment platform policy key = .walked then Scrubbed platform policy value value'
              else value = value')) ∧ ScrubbedMembers platform policy rest rest' := by
        rw [ScrubbedMembers]
        constructor
        · exact fun h => h value' rest' rfl
        · rintro h _ _ heq
          cases heq
          exact h
      rw [hscrubbed, ← htail]
      cases htreatment : treatment platform policy key with
      | walked =>
          rw [assigned_eq, htreatment] at hown hown'
          obtain ⟨out, hout, rfl⟩ := map_ok.mp hown
          obtain ⟨out', hout', rfl⟩ := map_ok.mp hown'
          have hsame := clear_iff value value' (hvalue.resolve_left (not_sensitive (.inl htreatment)))
            out out' hout hout'
          have hclear (v : Json) : StoredInClear platform policy key v := by
            rw [StoredInClear, htreatment]
            trivial
          have hkept := kept_iff_shows hlater
            (iff_of_true (Option.some_ne_none out) (hclear value))
          have hkept' := kept_iff_shows hlater'
            (iff_of_true (Option.some_ne_none out') (hclear value'))
          refine (properties_cons_iff hdigest hdigest').trans (and_congr_left fun _ => ?_)
          rw [hkept, hkept', if_pos rfl, Option.some.injEq, hsame]
      | masked =>
          rw [assigned_eq, htreatment] at hown hown'
          cases hown
          cases hown'
          have hsame := maskedValue_inj
            (hvalue.resolve_left (not_sensitive (.inr htreatment)))
          have hclear (v : Json) : StoredInClear platform policy key v := by
            rw [StoredInClear, htreatment]
            trivial
          have hkept := kept_iff_shows hlater
            (iff_of_true (Option.some_ne_none (maskedValue value)) (hclear value))
          have hkept' := kept_iff_shows hlater'
            (iff_of_true (Option.some_ne_none (maskedValue value')) (hclear value'))
          refine (properties_cons_iff hdigest hdigest').trans (and_congr_left fun _ => ?_)
          rw [hkept, hkept', if_neg (by decide), Option.some.injEq, hsame]
      | hashed =>
          rw [assigned_eq, htreatment] at hown hown'
          cases hown
          cases hown'
          have hclear (v : Json) : hashedValue platform tenantHashKey (fun _ => none) v ≠ none ↔
              StoredInClear platform policy key v := by
            rw [StoredInClear, htreatment]
            exact hashedValue_ne_none
          have hkept := kept_iff_shows hlater (hclear value)
          have hkept' := kept_iff_shows hlater' (hclear value')
          refine (properties_cons_iff hdigest hdigest').trans (and_congr_left fun _ => ?_)
          rw [hkept, hkept', if_neg (by decide)]
          refine and_congr_right fun hboth => forall_congr' fun hshows => ?_
          have hvalue : ∀ text, value ≠ .str text :=
            hashedValue_ne_none.mp ((hclear value).mpr hshows.clear)
          have hvalue' : ∀ text, value' ≠ .str text :=
            hashedValue_ne_none.mp ((hclear value').mpr (hboth.mp hshows).clear)
          rw [hashedValue_of_clear hvalue, hashedValue_of_clear hvalue', Option.some.injEq]
      | dropped rule =>
          have hunclear (v : Json) (more : List (String × Json)) :
              ¬Shows platform policy key v more :=
            not_shows (by rw [StoredInClear, htreatment]; exact id)
          rw [properties_of_unclear later hown (.inr ⟨rule, htreatment⟩),
            properties_of_unclear later' hown' (.inr ⟨rule, htreatment⟩)]
          simp [hunclear]
      | omitted =>
          have hunclear (v : Json) (more : List (String × Json)) :
              ¬Shows platform policy key v more :=
            not_shows (by rw [StoredInClear, htreatment]; exact id)
          rw [properties_of_unclear later hown (.inl htreatment),
            properties_of_unclear later' hown' (.inl htreatment)]
          simp [hunclear]
      | forbidden =>
          rw [assigned_eq, htreatment] at hown
          cases hown

end

end Clear

theorem toOption_ok {result : Except String Json} {out : Json} (h : result = .ok out) :
    result.toOption = some out := by
  rw [h]
  rfl

/-- Redaction returns nothing exactly when the walk gets to a forbidden field. -/
theorem toOption_redactWith {payload : Json} (h : Reached platform policy payload) :
    (redactWith platform policy tenantHashKey keep payload).toOption = none := by
  cases hout : redactWith platform policy tenantHashKey keep payload with
  | error e => rfl
  | ok out => exact absurd h (redactWith_ok_iff payload |>.mp ⟨out, hout⟩)

/-- Redaction does not leak exactly when the walk gets to a forbidden field if there is any, and
what it stores of a payload it would store of one that differs under sensitive keys. -/
theorem doesNotLeak_iff (platform : RedactionPlatform) (policy : RedactionPolicy)
    (tenantHashKey : String) (payload other : Json) :
    DoesNotLeak platform policy tenantHashKey payload other ↔
      (HasForbidden platform policy payload → Reached platform policy payload) ∧
        (OnlySensitive platform policy payload other → ¬Reached platform policy payload →
          Scrubbed platform policy payload other) := by
  constructor
  · intro h
    refine ⟨fun hforbidden => ?_, fun hsame hwalk => ?_⟩
    · refine Classical.byContradiction fun hwalk => ?_
      obtain ⟨out, hout⟩ := redactWith_ok_iff payload |>.mpr hwalk
      exact h.redacted out hout hforbidden
    · obtain ⟨out, hout⟩ := redactWith_ok_iff payload |>.mpr hwalk
      obtain ⟨out', hout'⟩ := redactWith_ok_iff other |>.mpr
        fun hreached => hwalk ((reached_congr hsame).mpr hreached)
      have heq := h.apart hsame
      unfold withoutDigests at heq
      rw [toOption_ok hout, toOption_ok hout'] at heq
      exact (clear_iff payload other hsame out out' hout hout').mp (Option.some.inj heq)
  · rintro ⟨hforbidden, hscrubbed⟩
    refine ⟨fun hasserted hhas => ?_, fun out hout hhas => ?_, fun hsame => ?_⟩
    · obtain ⟨out, hout, -⟩ := map_ok.mp hasserted
      exact redactWith_ok_iff payload |>.mp ⟨out, hout⟩ (hforbidden hhas)
    · exact redactWith_ok_iff payload |>.mp ⟨out, hout⟩ (hforbidden hhas)
    · unfold withoutDigests
      by_cases hreached : Reached platform policy payload
      · rw [toOption_redactWith hreached, toOption_redactWith ((reached_congr hsame).mp hreached)]
      · obtain ⟨out, hout⟩ := redactWith_ok_iff payload |>.mpr hreached
        obtain ⟨out', hout'⟩ := redactWith_ok_iff other |>.mpr
          fun hother => hreached ((reached_congr hsame).mpr hother)
        rw [toOption_ok hout, toOption_ok hout',
          (clear_iff payload other hsame out out' hout hout').mpr (hscrubbed hsame hreached)]

/-! ## Fields below a payee -/

/-- Keys in lower case, and digests that are not computed. -/
def lowerCasePlatform : RedactionPlatform where
  toLowerCase := id
  hmacSha256 _ text := text
  sha256Hex text := text

def payeeWith (key value : String) : Json := .obj [("payee", .obj [(key, .str value)])]

/-- A payee that is an object is stored as it is, with its account number and its name. -/
theorem payee_fields_leak :
    ¬DoesNotLeak lowerCasePlatform DEFAULT_AGENT_TRACE_POLICY "tenant"
        (payeeWith "account_number" "999988887777") (payeeWith "account_number" "999988887777") ∧
      ¬DoesNotLeak lowerCasePlatform DEFAULT_AGENT_TRACE_POLICY "tenant"
        (payeeWith "name" "Acme") (payeeWith "name" "Apex") := by
  constructor
  · intro h
    refine h.asserted rfl ⟨[("account_number", .str "999988887777")],
      .member List.mem_cons_self .self, _, List.mem_cons_self, ?_⟩
    exact ⟨_, List.mem_of_getElem? (i := 3) rfl, rfl, "account_number", by decide, rfl⟩
  · intro h
    have hsame : OnlySensitive lowerCasePlatform DEFAULT_AGENT_TRACE_POLICY
        (payeeWith "name" "Acme") (payeeWith "name" "Apex") :=
      ⟨_, rfl, _, _, rfl, .inl ⟨_, rfl, .inr rfl⟩, rfl⟩
    have hout := h.apart hsame
    change some (payeeWith "name" "Acme") = some (payeeWith "name" "Apex") at hout
    simp [payeeWith] at hout

end Walk

end BrainCore.Execution
