import BrainCore.Audit.Hash
import BrainCore.Audit.JsValueRoundTrip
import BrainCore.Foundation.JsonParse

/-!
# Equal up to the order of names

Two JSON values have one canonical text when they are the same but for the order in which
their objects list the names, and only then.  The names of an object are distinct, as
they are in the source's language.
-/

namespace BrainCore.Audit

open BrainCore.Foundation

mutual

/-- The values are the same up to the order of names, at every depth. -/
def SameJson : Json → Json → Prop
  | .null, .null => True
  | .bool a, .bool b => a = b
  | .num a, .num b => a = b
  | .str a, .str b => a = b
  | .arr items, .arr items' => SameItems items items'
  | .obj members, .obj members' =>
      (members.map Prod.fst).Perm (members'.map Prod.fst) ∧ SameMembers members members'
  | _, _ => False

def SameItems : List Json → List Json → Prop
  | [], [] => True
  | value :: rest, value' :: rest' => SameJson value value' ∧ SameItems rest rest'
  | _, _ => False

/-- What the second list has under a name of the first is the same value. -/
def SameMembers : List (String × Json) → List (String × Json) → Prop
  | [], _ => True
  | (name, value) :: rest, members =>
      (∀ value', (name, value') ∈ members → SameJson value value') ∧ SameMembers rest members

end

theorem sameMembers_iff {members members' : List (String × Json)} :
    SameMembers members members' ↔ ∀ name value value', (name, value) ∈ members →
      (name, value') ∈ members' → SameJson value value' := by
  induction members with
  | nil => simp [SameMembers]
  | cons member rest ih =>
      obtain ⟨name, value⟩ := member
      rw [SameMembers, ih]
      constructor
      · rintro ⟨hfirst, hrest⟩ other v v' hv hv'
        rcases List.mem_cons.mp hv with heq | hv
        · cases heq
          exact hfirst v' hv'
        · exact hrest other v v' hv hv'
      · intro h
        exact ⟨fun v' hv' => h name value v' List.mem_cons_self hv',
          fun other v v' hv hv' => h other v v' (List.mem_cons_of_mem _ hv) hv'⟩

theorem distinct_of_mem {members : List (String × Json)} (h : DistinctJsonMembers members)
    {name : String} {value : Json} (hmem : (name, value) ∈ members) : DistinctJson value :=
  distinctJsonMembers_iff.mp h (name, value) hmem

theorem nodup_of_names {members : List (String × Json)} (h : (members.map Prod.fst).Nodup) :
    members.Nodup := List.Nodup.of_map Prod.fst h

/-- Objects have one order exactly when they have the same names and, under them, values of
one order. -/
theorem ordered_obj_eq_iff {members members' : List (String × Json)}
    (hnodup : (members.map Prod.fst).Nodup) (hnodup' : (members'.map Prod.fst).Nodup) :
    ordered (.obj members) = ordered (.obj members') ↔
      (members.map Prod.fst).Perm (members'.map Prod.fst) ∧
        ∀ name value value', (name, value) ∈ members → (name, value') ∈ members' →
          ordered value = ordered value' := by
  have horder : ((orderedMembers members).map Prod.fst).Nodup := by
    rw [orderedMembers_names]
    exact hnodup
  have horder' : ((orderedMembers members').map Prod.fst).Nodup := by
    rw [orderedMembers_names]
    exact hnodup'
  rw [ordered, ordered, Json.obj.injEq, sortNames_eq_iff horder]
  constructor
  · intro hperm
    refine ⟨?_, fun name value value' hvalue hvalue' => ?_⟩
    · rw [← orderedMembers_names members, ← orderedMembers_names members']
      exact hperm.map Prod.fst
    · have hmem := hperm.mem_iff.mp (mem_orderedMembers hvalue)
      have hmem' := mem_orderedMembers hvalue'
      exact congrArg Prod.snd (List.inj_on_of_nodup_map horder' hmem hmem' rfl)
  · rintro ⟨hnames, hvalues⟩
    have hsubset : ∀ {first second : List (String × Json)},
        (first.map Prod.fst).Perm (second.map Prod.fst) →
        (∀ name value value', (name, value) ∈ first → (name, value') ∈ second →
          ordered value = ordered value') →
        ∀ member ∈ orderedMembers first, member ∈ orderedMembers second := by
      rintro first second hperm hsame ⟨name, json⟩ hmember
      obtain ⟨value, hvalue, rfl⟩ := exists_of_mem_orderedMembers hmember
      have hname : name ∈ second.map Prod.fst :=
        hperm.mem_iff.mp (List.mem_map_of_mem (f := Prod.fst) hvalue)
      obtain ⟨⟨_, value'⟩, hvalue', rfl⟩ := List.mem_map.mp hname
      rw [hsame _ value value' hvalue hvalue']
      exact mem_orderedMembers hvalue'
    refine (List.perm_ext_iff_of_nodup (nodup_of_names horder) (nodup_of_names horder')).mpr
      fun member => ⟨hsubset hnames hvalues member, hsubset hnames.symm ?_ member⟩
    exact fun name value value' hvalue hvalue' => (hvalues name value' value hvalue' hvalue).symm

mutual

/-- Two values have one order exactly when they are the same up to it. -/
theorem ordered_eq_iff : ∀ {d e : Json}, DistinctJson d → DistinctJson e →
    (ordered d = ordered e ↔ SameJson d e)
  | .null, e, _, _ => by cases e <;> simp [ordered, SameJson]
  | .bool _, e, _, _ => by cases e <;> simp [ordered, SameJson]
  | .num _, e, _, _ => by cases e <;> simp [ordered, SameJson]
  | .str _, e, _, _ => by cases e <;> simp [ordered, SameJson]
  | .arr items, .arr items', hd, he => by
      rw [ordered, ordered, Json.arr.injEq, SameJson]
      exact orderedItems_eq_iff hd he
  | .obj members, .obj members', hd, he => by
      rw [ordered_obj_eq_iff hd.1 he.1, SameJson, sameMembers_iff]
      refine and_congr_right fun _ => forall_congr' fun name => forall_congr' fun value =>
        forall_congr' fun value' => ?_
      constructor
      · intro h hvalue hvalue'
        exact (ordered_member_iff members hd.2 hvalue (distinct_of_mem he.2 hvalue')).mp
          (h hvalue hvalue')
      · intro h hvalue hvalue'
        exact (ordered_member_iff members hd.2 hvalue (distinct_of_mem he.2 hvalue')).mpr
          (h hvalue hvalue')
  | .arr _, .null, _, _ | .arr _, .bool _, _, _ | .arr _, .num _, _, _ | .arr _, .str _, _, _
  | .arr _, .obj _, _, _ | .obj _, .null, _, _ | .obj _, .bool _, _, _ | .obj _, .num _, _, _
  | .obj _, .str _, _, _ | .obj _, .arr _, _, _ => by simp [ordered, SameJson]

theorem orderedItems_eq_iff : ∀ {items items' : List Json}, DistinctJsonItems items →
    DistinctJsonItems items' → (orderedItems items = orderedItems items' ↔ SameItems items items')
  | [], [], _, _ => by simp [SameItems]
  | [], _ :: _, _, _ => by simp [orderedItems, SameItems]
  | _ :: _, [], _, _ => by simp [orderedItems, SameItems]
  | value :: rest, value' :: rest', hd, he => by
      rw [orderedItems, orderedItems, List.cons.injEq, SameItems, ordered_eq_iff hd.1 he.1,
        orderedItems_eq_iff hd.2 he.2]

theorem ordered_member_iff : ∀ (members : List (String × Json)) {name : String} {value e : Json},
    DistinctJsonMembers members → (name, value) ∈ members → DistinctJson e →
      (ordered value = ordered e ↔ SameJson value e)
  | [], _, _, _, _, hmem, _ => absurd hmem List.not_mem_nil
  | (first, firstValue) :: rest, name, value, e, hd, hmem, he => by
      rcases List.mem_cons.mp hmem with heq | hmem
      · obtain ⟨rfl, rfl⟩ := Prod.mk.inj heq
        exact ordered_eq_iff hd.1 he
      · exact ordered_member_iff rest hd.2 hmem he

end

/-- `stableStringify` tells apart what differs by more than the order of names. -/
theorem stableStringify_eq_iff {d e : Json} (hd : DistinctJson d) (he : DistinctJson e) :
    stableStringify d = stableStringify e ↔ SameJson d e := by
  rw [stableStringify, stableStringify, Json.text_injective.eq_iff, ordered_eq_iff hd he]

mutual

theorem ordered_ordered : ∀ {value : Json}, ordered (ordered value) = ordered value
  | .null => rfl
  | .bool _ => rfl
  | .num _ => rfl
  | .str _ => rfl
  | .arr _ => congrArg Json.arr orderedItems_orderedItems
  | .obj members => by
      have hmembers : orderedMembers (sortNames (orderedMembers members)) =
          sortNames (orderedMembers members) := orderedMembers_eq_self fun member hmem =>
        ordered_of_mem_orderedMembers members member ((sortNames_perm _).mem_iff.mp hmem)
      rw [ordered, ordered, hmembers, sortNames_of_pairwise (sortNames_pairwise _)]

theorem orderedItems_orderedItems : ∀ {items : List Json},
    orderedItems (orderedItems items) = orderedItems items
  | [] => rfl
  | _ :: _ => List.cons_eq_cons.mpr ⟨ordered_ordered, orderedItems_orderedItems⟩

theorem ordered_of_mem_orderedMembers : ∀ (members : List (String × Json)),
    ∀ member ∈ orderedMembers members, ordered member.2 = member.2
  | [], _, hmem => absurd hmem List.not_mem_nil
  | (_, _) :: rest, member, hmem => by
      rcases List.mem_cons.mp hmem with rfl | hmem
      · exact ordered_ordered
      · exact ordered_of_mem_orderedMembers rest member hmem

end

theorem stableStringify_ordered (value : Json) :
    stableStringify (ordered value) = stableStringify value := by
  rw [stableStringify, stableStringify, ordered_ordered]

end BrainCore.Audit
