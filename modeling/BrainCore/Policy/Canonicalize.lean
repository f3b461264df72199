import BrainCore.Audit.CanonicalJson

/-!
# The canonical text of a policy

`services/policy/src/dsl.ts` writes its own canonical text, by its own recursion: the
names of an object are sorted where the object is written.  It is the text of the audit
log, and equal texts are of values that differ in the order of names at most.
-/

namespace BrainCore.Policy

open BrainCore.Foundation BrainCore.Audit

/-- `join(",")`. -/
def joinComma : List (List Char) → List Char
  | [] => []
  | [piece] => piece
  | piece :: next :: rest => piece ++ ',' :: joinComma (next :: rest)

/-- A name and the text of its value. -/
def memberText (member : String × List Char) : List Char := quote member.1 ++ ':' :: member.2

mutual

/-- `canonicalize`. -/
def canonicalize : Json → List Char
  | .null => ['n', 'u', 'l', 'l']
  | .bool true => ['t', 'r', 'u', 'e']
  | .bool false => ['f', 'a', 'l', 's', 'e']
  | .num q => numberText q
  | .str s => quote s
  | .arr items => '[' :: (joinComma (canonicalItems items) ++ [']'])
  | .obj members => '{' :: (joinComma ((sortNames (canonicalTexts members)).map memberText) ++ ['}'])

def canonicalItems : List Json → List (List Char)
  | [] => []
  | value :: rest => canonicalize value :: canonicalItems rest

/-- The members of an object with the texts of their values. -/
def canonicalTexts : List (String × Json) → List (String × List Char)
  | [] => []
  | (name, value) :: rest => (name, canonicalize value) :: canonicalTexts rest

end

/-! ## One text with the audit log -/

theorem itemsText_eq (items : List Json) :
    Json.itemsText items = joinComma (items.map Json.text) ++ [']'] := by
  have hmore : ∀ (value : Json) (rest : List Json), value.text ++ Json.moreItems rest =
      joinComma ((value :: rest).map Json.text) ++ [']'] := by
    intro value rest
    induction rest generalizing value with
    | nil => rfl
    | cons next rest ih => simp [Json.moreItems, joinComma, ih]
  cases items with
  | nil => rfl
  | cons value rest => exact hmore value rest

theorem membersText_eq (members : List (String × Json)) : Json.membersText members =
    joinComma (members.map fun member => memberText (member.1, member.2.text)) ++ ['}'] := by
  have hmore : ∀ (member : String × Json) (rest : List (String × Json)),
      quote member.1 ++ ':' :: (member.2.text ++ Json.moreMembers rest) =
        joinComma ((member :: rest).map fun member => memberText (member.1, member.2.text)) ++
          ['}'] := by
    intro member rest
    induction rest generalizing member with
    | nil => simp [Json.moreMembers, joinComma, memberText]
    | cons next rest ih => simp [Json.moreMembers, joinComma, memberText, ih]
  cases members with
  | nil => rfl
  | cons member rest => exact hmore member rest

theorem sortNames_map {α β : Type} (f : α → β) (members : List (String × α)) :
    (sortNames members).map (fun member => (member.1, f member.2)) =
      sortNames (members.map fun member => (member.1, f member.2)) :=
  List.map_insertionSort _ _ _ _ fun _ _ _ _ => Iff.rfl

mutual

theorem canonicalize_eq : ∀ value : Json, canonicalize value = stableStringify value
  | .null => rfl
  | .bool true => rfl
  | .bool false => rfl
  | .num _ => rfl
  | .str _ => rfl
  | .arr items => by
      rw [canonicalize, canonicalItems_eq, stableStringify, ordered, Json.text, itemsText_eq]
  | .obj members => by
      rw [canonicalize, canonicalTexts_eq, stableStringify, ordered, Json.text, membersText_eq,
        ← sortNames_map, List.map_map]
      rfl

theorem canonicalItems_eq : ∀ items : List Json,
    canonicalItems items = (orderedItems items).map Json.text
  | [] => rfl
  | value :: rest =>
      List.cons_eq_cons.mpr ⟨canonicalize_eq value, canonicalItems_eq rest⟩

theorem canonicalTexts_eq : ∀ members : List (String × Json),
    canonicalTexts members =
      (orderedMembers members).map fun member => (member.1, member.2.text)
  | [] => rfl
  | (name, value) :: rest =>
      List.cons_eq_cons.mpr
        ⟨congrArg (Prod.mk name) (canonicalize_eq value), canonicalTexts_eq rest⟩

end

/-! ## The form of an audited value -/

mutual

/-- The value without what `stableJsonValue` leaves out. -/
def withoutProto : Json → Json
  | .arr items => .arr (withoutProtoItems items)
  | .obj members => .obj (withoutProtoMembers members)
  | value => value

def withoutProtoItems : List Json → List Json
  | [] => []
  | value :: rest => withoutProto value :: withoutProtoItems rest

def withoutProtoMembers : List (String × Json) → List (String × Json)
  | [] => []
  | (name, value) :: rest =>
      if name = JsValue.protoName then withoutProtoMembers rest
      else (name, withoutProto value) :: withoutProtoMembers rest

end

theorem withoutProtoMembers_sublist (members : List (String × Json)) :
    ((withoutProtoMembers members).map Prod.fst).Sublist (members.map Prod.fst) := by
  induction members with
  | nil => exact .slnil
  | cons member rest ih =>
      obtain ⟨name, value⟩ := member
      rw [withoutProtoMembers]
      split
      · exact ih.cons name
      · exact ih.cons_cons name

mutual

theorem distinct_withoutProto : ∀ {value : Json}, DistinctJson value →
    DistinctJson (withoutProto value)
  | .null, _ => trivial
  | .bool _, _ => trivial
  | .num _, _ => trivial
  | .str _, _ => trivial
  | .arr _, h => distinct_withoutProtoItems h
  | .obj members, h =>
      ⟨h.1.sublist (withoutProtoMembers_sublist members), distinct_withoutProtoMembers h.2⟩

theorem distinct_withoutProtoItems : ∀ {items : List Json}, DistinctJsonItems items →
    DistinctJsonItems (withoutProtoItems items)
  | [], _ => trivial
  | _ :: _, h => ⟨distinct_withoutProto h.1, distinct_withoutProtoItems h.2⟩

theorem distinct_withoutProtoMembers : ∀ {members : List (String × Json)},
    DistinctJsonMembers members → DistinctJsonMembers (withoutProtoMembers members)
  | [], _ => trivial
  | (name, _) :: _, h => by
      rw [withoutProtoMembers]
      split
      · exact distinct_withoutProtoMembers h.2
      · exact ⟨distinct_withoutProto h.1, distinct_withoutProtoMembers h.2⟩

end

mutual

/-- The form that is hashed is the ordered value without these names. -/
theorem canonical_eq_ordered : ∀ value : Json, canonical value = ordered (withoutProto value)
  | .null => rfl
  | .bool _ => rfl
  | .num _ => rfl
  | .str _ => rfl
  | .arr items => by
      rw [canonical_arr, withoutProto, ordered, canonicalItems_eq_ordered]
  | .obj members => by
      rw [canonical_obj, withoutProto, ordered, canonicalMembers_eq_ordered]

theorem canonicalItems_eq_ordered : ∀ items : List Json,
    items.map canonical = orderedItems (withoutProtoItems items)
  | [] => rfl
  | value :: rest =>
      List.cons_eq_cons.mpr ⟨canonical_eq_ordered value, canonicalItems_eq_ordered rest⟩

theorem canonicalMembers_eq_ordered : ∀ members : List (String × Json),
    canonicalMembers members = orderedMembers (withoutProtoMembers members)
  | [] => rfl
  | (name, value) :: rest => by
      rw [withoutProtoMembers]
      have hrest := canonicalMembers_eq_ordered rest
      unfold canonicalMembers at hrest ⊢
      split
      · rename_i hproto
        rw [List.filter_cons_of_neg (by simpa using hproto), hrest]
      · rename_i hproto
        rw [List.filter_cons_of_pos (by simpa using hproto), List.map_cons, orderedMembers, hrest,
          canonical_eq_ordered value]

end

/-- A JSON value of the source's language: the names of an object are distinct. -/
structure JsonDocument where
  value : Json
  distinct : DistinctJson value

end BrainCore.Policy
