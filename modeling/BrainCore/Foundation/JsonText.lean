import BrainCore.Foundation.Digits
import BrainCore.Foundation.Json

/-!
# JSON text

The compact text of a JSON value, which is unambiguous: a text followed by the
end or by a separator is the text of one value only.  A number is written as a
fraction, where the source's language writes a shortest decimal.
-/

namespace BrainCore.Foundation

/-! ## Pieces of a text -/

def hexDigit (n : Nat) : Char := Nat.digitChar n

/-- A character of a quoted text. -/
def quoteChar (c : Char) : List Char :=
  if c = '"' then ['\\', '"']
  else if c = '\\' then ['\\', '\\']
  else if c = '\x08' then ['\\', 'b']
  else if c = '\x0c' then ['\\', 'f']
  else if c = '\n' then ['\\', 'n']
  else if c = '\r' then ['\\', 'r']
  else if c = '\t' then ['\\', 't']
  else if c.toNat < 32 then ['\\', 'u', '0', '0', hexDigit (c.toNat / 16), hexDigit (c.toNat % 16)]
  else [c]

def quote (s : String) : List Char := '"' :: (s.toList.flatMap quoteChar ++ ['"'])

def hexValue (c : Char) : Nat := if c.isDigit then c.toNat - 48 else c.toNat - 87

theorem hexValue_hexDigit : ∀ n < 16, hexValue (hexDigit n) = n := by decide

/-- What follows a backslash. -/
def unescape : List Char → Option (Char × List Char)
  | 'u' :: '0' :: '0' :: high :: low :: rest =>
      some (Char.ofNat (16 * hexValue high + hexValue low), rest)
  | 'b' :: rest => some ('\x08', rest)
  | 'f' :: rest => some ('\x0c', rest)
  | 'n' :: rest => some ('\n', rest)
  | 'r' :: rest => some ('\r', rest)
  | 't' :: rest => some ('\t', rest)
  | c :: rest => some (c, rest)
  | [] => none

/-- Undoes `quoteChar`. -/
def unquoteChar : List Char → Option (Char × List Char)
  | [] => none
  | c :: rest => if c = '\\' then unescape rest else some (c, rest)

theorem unquoteChar_quoteChar (c : Char) (rest : List Char) :
    unquoteChar (quoteChar c ++ rest) = some (c, rest) := by
  unfold quoteChar
  split
  · subst_vars
    rfl
  split
  · subst_vars
    rfl
  split
  · subst_vars
    rfl
  split
  · subst_vars
    rfl
  split
  · subst_vars
    rfl
  split
  · subst_vars
    rfl
  split
  · subst_vars
    rfl
  split
  · rename_i hcontrol
    change some (Char.ofNat (16 * hexValue (hexDigit (c.toNat / 16)) +
      hexValue (hexDigit (c.toNat % 16))), rest) = some (c, rest)
    rw [hexValue_hexDigit _ (by omega), hexValue_hexDigit _ (by omega), Nat.div_add_mod,
      Char.ofNat_toNat]
  · rename_i hbackslash _ _ _ _ _ _
    exact if_neg hbackslash

theorem quoteChar_append_inj {c d : Char} {s t : List Char}
    (h : quoteChar c ++ s = quoteChar d ++ t) : c = d ∧ s = t := by
  have hsame := congrArg unquoteChar h
  rw [unquoteChar_quoteChar, unquoteChar_quoteChar] at hsame
  exact Prod.mk.inj (Option.some.inj hsame)

/-- No character is quoted to something that starts like the end of a text. -/
theorem quoteChar_append_ne {c : Char} {s t : List Char} : quoteChar c ++ s ≠ '"' :: t := by
  intro h
  unfold quoteChar at h
  split at h
  · cases h
  · rename_i hquote
    iterate 7
      split at h
      · cases h
    exact hquote (List.cons.inj h).1

theorem flatMap_quoteChar_inj {first second s t : List Char}
    (h : first.flatMap quoteChar ++ '"' :: s = second.flatMap quoteChar ++ '"' :: t) :
    first = second ∧ s = t := by
  induction first generalizing second with
  | nil =>
      cases second with
      | nil => exact ⟨rfl, (List.cons.inj h).2⟩
      | cons d second =>
          rw [List.flatMap_cons, List.append_assoc] at h
          exact absurd h.symm quoteChar_append_ne
  | cons c first ih =>
      rw [List.flatMap_cons, List.append_assoc] at h
      cases second with
      | nil => exact absurd h quoteChar_append_ne
      | cons d second =>
          rw [List.flatMap_cons, List.append_assoc] at h
          obtain ⟨rfl, hrest⟩ := quoteChar_append_inj h
          obtain ⟨rfl, rfl⟩ := ih hrest
          exact ⟨rfl, rfl⟩

theorem quote_append_inj {first second : String} {s t : List Char}
    (h : quote first ++ s = quote second ++ t) : first = second ∧ s = t := by
  unfold quote at h
  rw [List.cons_append, List.cons_append, List.append_assoc, List.append_assoc] at h
  obtain ⟨hsame, hrest⟩ := flatMap_quoteChar_inj (List.cons.inj h).2
  exact ⟨String.toList_inj.mp hsame, hrest⟩

/-- The numerator, and the denominator of a number that is no integer. -/
def numberText (q : Rat) : List Char :=
  (if q.num < 0 then ['-'] else []) ++ Nat.toDigits 10 q.num.natAbs ++
    (if q.den = 1 then [] else '/' :: Nat.toDigits 10 q.den)

/-- Two texts that each break off at the first character without a property are the same. -/
theorem append_inj_of_break {P : Char → Prop} {first second s t : List Char}
    (hfirst : ∀ c ∈ first, P c) (hsecond : ∀ c ∈ second, P c)
    (hs : ∀ c, s.head? = some c → ¬P c) (ht : ∀ c, t.head? = some c → ¬P c)
    (h : first ++ s = second ++ t) : first = second ∧ s = t := by
  induction first generalizing second with
  | nil =>
      cases second with
      | nil => exact ⟨rfl, h⟩
      | cons d second =>
          rw [List.nil_append] at h
          exact absurd (hsecond d List.mem_cons_self) (hs d (by rw [h]; rfl))
  | cons c first ih =>
      cases second with
      | nil =>
          rw [List.nil_append] at h
          exact absurd (hfirst c List.mem_cons_self) (ht c (by rw [← h]; rfl))
      | cons d second =>
          obtain ⟨rfl, hrest⟩ := List.cons.inj h
          obtain ⟨rfl, rfl⟩ := ih (fun x hx => hfirst x (List.mem_cons_of_mem _ hx))
            (fun x hx => hsecond x (List.mem_cons_of_mem _ hx)) hrest
          exact ⟨rfl, rfl⟩

theorem toDigits_inj {m n : Nat} (h : Nat.toDigits 10 m = Nat.toDigits 10 n) : m = n := by
  rw [← natOf_toDigits m, h, natOf_toDigits]

theorem numberText_injective : Function.Injective numberText := by
  intro q r h
  unfold numberText at h
  have hbreak : ∀ (x : Rat) c, (if x.den = 1 then [] else '/' :: Nat.toDigits 10 x.den).head? =
      some c → ¬c.isDigit = true := by
    intro x c hc
    split at hc
    · cases hc
    · obtain rfl := Option.some.inj hc
      decide
  have hdigits : ∀ (n : Nat) c, c ∈ Nat.toDigits 10 n → c.isDigit = true := isDigits_toDigits
  have hminus : ∀ (n : Nat) (s t : List Char), '-' :: s ≠ Nat.toDigits 10 n ++ t := by
    intro n s t hsame
    cases hn : Nat.toDigits 10 n with
    | nil => exact absurd hn Nat.toDigits_ne_nil
    | cons d rest =>
        rw [hn] at hsame
        have hd := hdigits n d (hn ▸ List.mem_cons_self)
        rw [← (List.cons.inj hsame).1] at hd
        exact absurd hd (by decide)
  obtain ⟨hsign, hrest⟩ : (q.num < 0 ↔ r.num < 0) ∧
      Nat.toDigits 10 q.num.natAbs ++ (if q.den = 1 then [] else '/' :: Nat.toDigits 10 q.den) =
        Nat.toDigits 10 r.num.natAbs ++ (if r.den = 1 then [] else '/' :: Nat.toDigits 10 r.den) := by
    rw [List.append_assoc, List.append_assoc] at h
    by_cases hq : q.num < 0
    · by_cases hr : r.num < 0
      · rw [if_pos hq, if_pos hr] at h
        exact ⟨⟨fun _ => hr, fun _ => hq⟩, (List.cons.inj h).2⟩
      · rw [if_pos hq, if_neg hr] at h
        exact absurd h (hminus _ _ _)
    · by_cases hr : r.num < 0
      · rw [if_neg hq, if_pos hr] at h
        exact absurd h.symm (hminus _ _ _)
      · rw [if_neg hq, if_neg hr] at h
        exact ⟨⟨fun hneg => absurd hneg hq, fun hneg => absurd hneg hr⟩, h⟩
  obtain ⟨habs, hden⟩ := append_inj_of_break (hdigits _) (hdigits _) (hbreak q) (hbreak r) hrest
  have hnum : q.num = r.num := by
    have habs := toDigits_inj habs
    omega
  refine Rat.ext hnum ?_
  by_cases hq : q.den = 1
  · by_cases hr : r.den = 1
    · rw [hq, hr]
    · rw [if_pos hq, if_neg hr] at hden
      cases hden
  · by_cases hr : r.den = 1
    · rw [if_neg hq, if_pos hr] at hden
      cases hden
    · rw [if_neg hq, if_neg hr] at hden
      exact toDigits_inj (List.cons.inj hden).2

/-! ## The text of a value -/

/-- What can follow a value. -/
def Ends (s : List Char) : Prop := ∀ c, s.head? = some c → c = ',' ∨ c = ']' ∨ c = '}'

def IsNumberChar (c : Char) : Prop := c.isDigit = true ∨ c = '-' ∨ c = '/'

theorem isNumberChar_of_mem {q : Rat} {c : Char} (h : c ∈ numberText q) : IsNumberChar c := by
  unfold numberText at h
  rcases List.mem_append.mp h with h | h
  · rcases List.mem_append.mp h with h | h
    · split at h
      · exact .inr (.inl (List.mem_singleton.mp h))
      · cases h
    · exact .inl (isDigits_toDigits _ c h)
  · split at h
    · cases h
    · rcases List.mem_cons.mp h with rfl | h
      · exact .inr (.inr rfl)
      · exact .inl (isDigits_toDigits _ c h)

theorem Ends.not_number {s : List Char} (h : Ends s) :
    ∀ c, s.head? = some c → ¬IsNumberChar c := by
  unfold IsNumberChar
  intro c hc
  rcases h c hc with rfl | rfl | rfl <;> decide

theorem numberText_append_inj {q r : Rat} {s t : List Char} (hs : Ends s) (ht : Ends t)
    (h : numberText q ++ s = numberText r ++ t) : q = r ∧ s = t := by
  obtain ⟨hsame, hrest⟩ := append_inj_of_break (fun _ => isNumberChar_of_mem)
    (fun _ => isNumberChar_of_mem) hs.not_number ht.not_number h
  exact ⟨numberText_injective hsame, hrest⟩

namespace Json

mutual

/-- The compact text of a value, its members in the order they have. -/
def text : Json → List Char
  | .null => ['n', 'u', 'l', 'l']
  | .bool true => ['t', 'r', 'u', 'e']
  | .bool false => ['f', 'a', 'l', 's', 'e']
  | .num q => numberText q
  | .str s => quote s
  | .arr items => '[' :: itemsText items
  | .obj members => '{' :: membersText members

def itemsText : List Json → List Char
  | [] => [']']
  | value :: rest => text value ++ moreItems rest

def moreItems : List Json → List Char
  | [] => [']']
  | value :: rest => ',' :: (text value ++ moreItems rest)

def membersText : List (String × Json) → List Char
  | [] => ['}']
  | (name, value) :: rest => quote name ++ ':' :: (text value ++ moreMembers rest)

def moreMembers : List (String × Json) → List Char
  | [] => ['}']
  | (name, value) :: rest => ',' :: (quote name ++ ':' :: (text value ++ moreMembers rest))

end

theorem ends_moreItems (items : List Json) (s : List Char) : Ends (moreItems items ++ s) := by
  cases items with
  | nil =>
      rintro c ⟨⟩
      exact .inr (.inl rfl)
  | cons value rest =>
      rintro c ⟨⟩
      exact .inl rfl

theorem ends_moreMembers (members : List (String × Json)) (s : List Char) :
    Ends (moreMembers members ++ s) := by
  cases members with
  | nil =>
      rintro c ⟨⟩
      exact .inr (.inr rfl)
  | cons member rest =>
      rintro c ⟨⟩
      exact .inl rfl

/-- The kind of value that a first character announces. -/
def leadKind (c : Char) : Nat :=
  if c = 'n' then 0
  else if c = 't' then 1
  else if c = 'f' then 2
  else if c = '"' then 3
  else if c = '[' then 4
  else if c = '{' then 5
  else if c.isDigit ∨ c = '-' ∨ c = '/' then 6
  else 7

def kind : Json → Nat
  | .null => 0
  | .bool true => 1
  | .bool false => 2
  | .str _ => 3
  | .arr _ => 4
  | .obj _ => 5
  | .num _ => 6

theorem leadKind_number {c : Char} (h : IsNumberChar c) : leadKind c = 6 := by
  unfold leadKind IsNumberChar at *
  iterate 6
    split
    · subst_vars
      exact absurd h (by decide)
  rfl

theorem text_lead (value : Json) : ∃ c rest, value.text = c :: rest ∧ leadKind c = value.kind := by
  cases value with
  | null => exact ⟨_, _, rfl, rfl⟩
  | bool b => cases b <;> exact ⟨_, _, rfl, rfl⟩
  | str s => exact ⟨_, _, rfl, rfl⟩
  | arr items => exact ⟨_, _, rfl, rfl⟩
  | obj members => exact ⟨_, _, rfl, rfl⟩
  | num q =>
      change ∃ c rest, numberText q = c :: rest ∧ leadKind c = 6
      cases hq : numberText q with
      | nil =>
          unfold numberText at hq
          have hdigits := (List.append_eq_nil_iff.mp (List.append_eq_nil_iff.mp hq).1).2
          exact absurd hdigits Nat.toDigits_ne_nil
      | cons c rest =>
          exact ⟨c, rest, rfl, leadKind_number (isNumberChar_of_mem (hq ▸ List.mem_cons_self))⟩

theorem kind_eq {a b : Json} {s t : List Char} (h : a.text ++ s = b.text ++ t) :
    a.kind = b.kind := by
  obtain ⟨c, rest, ha, hc⟩ := text_lead a
  obtain ⟨d, rest', hb, hd⟩ := text_lead b
  rw [ha, hb] at h
  rw [← hc, ← hd, (List.cons.inj h).1]

/-- No text of a value starts like the end of an array. -/
theorem text_append_ne {value : Json} {s t : List Char} : value.text ++ s ≠ ']' :: t := by
  obtain ⟨c, rest, hvalue, hc⟩ := text_lead value
  intro h
  rw [hvalue] at h
  rw [(List.cons.inj h).1] at hc
  have hbracket : leadKind ']' = 7 := by decide
  rw [hbracket] at hc
  unfold kind at hc
  split at hc <;> cases hc

mutual

/-- The text of a value, followed by its end or a separator, is the text of that value only. -/
theorem text_append_inj : ∀ {a b : Json} {s t : List Char}, Ends s → Ends t →
    a.text ++ s = b.text ++ t → a = b ∧ s = t
  | a, b, s, t, hs, ht, h => by
      have hkind := kind_eq h
      match a, b with
      | .null, .null => exact ⟨rfl, List.append_cancel_left h⟩
      | .bool true, .bool true => exact ⟨rfl, List.append_cancel_left h⟩
      | .bool false, .bool false => exact ⟨rfl, List.append_cancel_left h⟩
      | .num q, .num r =>
          obtain ⟨rfl, rfl⟩ := numberText_append_inj hs ht h
          exact ⟨rfl, rfl⟩
      | .str _, .str _ =>
          obtain ⟨rfl, rfl⟩ := quote_append_inj h
          exact ⟨rfl, rfl⟩
      | .arr items, .arr items' =>
          obtain ⟨hitems, hrest⟩ := itemsText_append_inj (List.cons.inj h).2
          exact ⟨congrArg Json.arr hitems, hrest⟩
      | .obj members, .obj members' =>
          obtain ⟨hmembers, hrest⟩ := membersText_append_inj (List.cons.inj h).2
          exact ⟨congrArg Json.obj hmembers, hrest⟩

theorem itemsText_append_inj : ∀ {items items' : List Json} {s t : List Char},
    itemsText items ++ s = itemsText items' ++ t → items = items' ∧ s = t
  | [], [], _, _, h => ⟨rfl, (List.cons.inj h).2⟩
  | [], value :: rest, _, _, h => by
      rw [itemsText, itemsText, List.append_assoc] at h
      exact absurd h.symm text_append_ne
  | value :: rest, [], _, _, h => by
      rw [itemsText, itemsText, List.append_assoc] at h
      exact absurd h text_append_ne
  | value :: rest, value' :: rest', _, _, h => by
      rw [itemsText, itemsText, List.append_assoc, List.append_assoc] at h
      obtain ⟨rfl, hrest⟩ := text_append_inj (ends_moreItems _ _) (ends_moreItems _ _) h
      obtain ⟨rfl, rfl⟩ := moreItems_append_inj hrest
      exact ⟨rfl, rfl⟩

theorem moreItems_append_inj : ∀ {items items' : List Json} {s t : List Char},
    moreItems items ++ s = moreItems items' ++ t → items = items' ∧ s = t
  | [], [], _, _, h => ⟨rfl, (List.cons.inj h).2⟩
  | [], value :: rest, _, _, h => nomatch (List.cons.inj h).1
  | value :: rest, [], _, _, h => nomatch (List.cons.inj h).1
  | value :: rest, value' :: rest', _, _, h => by
      rw [moreItems, moreItems, List.cons_append, List.cons_append, List.append_assoc,
        List.append_assoc] at h
      obtain ⟨rfl, hrest⟩ :=
        text_append_inj (ends_moreItems _ _) (ends_moreItems _ _) (List.cons.inj h).2
      obtain ⟨rfl, rfl⟩ := moreItems_append_inj hrest
      exact ⟨rfl, rfl⟩

theorem membersText_append_inj : ∀ {members members' : List (String × Json)} {s t : List Char},
    membersText members ++ s = membersText members' ++ t → members = members' ∧ s = t
  | [], [], _, _, h => ⟨rfl, (List.cons.inj h).2⟩
  | [], (name, value) :: rest, _, _, h => nomatch (List.cons.inj h).1
  | (name, value) :: rest, [], _, _, h => nomatch (List.cons.inj h).1
  | (name, value) :: rest, (name', value') :: rest', _, _, h => by
      rw [membersText, membersText, List.append_assoc, List.append_assoc] at h
      obtain ⟨rfl, hrest⟩ := quote_append_inj h
      rw [List.cons_append, List.cons_append, List.append_assoc, List.append_assoc] at hrest
      obtain ⟨rfl, hmore⟩ :=
        text_append_inj (ends_moreMembers _ _) (ends_moreMembers _ _) (List.cons.inj hrest).2
      obtain ⟨rfl, rfl⟩ := moreMembers_append_inj hmore
      exact ⟨rfl, rfl⟩

theorem moreMembers_append_inj : ∀ {members members' : List (String × Json)} {s t : List Char},
    moreMembers members ++ s = moreMembers members' ++ t → members = members' ∧ s = t
  | [], [], _, _, h => ⟨rfl, (List.cons.inj h).2⟩
  | [], (name, value) :: rest, _, _, h => nomatch (List.cons.inj h).1
  | (name, value) :: rest, [], _, _, h => nomatch (List.cons.inj h).1
  | (name, value) :: rest, (name', value') :: rest', _, _, h => by
      rw [moreMembers, moreMembers, List.cons_append, List.cons_append, List.append_assoc,
        List.append_assoc] at h
      obtain ⟨rfl, hrest⟩ := quote_append_inj (List.cons.inj h).2
      rw [List.cons_append, List.cons_append, List.append_assoc, List.append_assoc] at hrest
      obtain ⟨rfl, hmore⟩ :=
        text_append_inj (ends_moreMembers _ _) (ends_moreMembers _ _) (List.cons.inj hrest).2
      obtain ⟨rfl, rfl⟩ := moreMembers_append_inj hmore
      exact ⟨rfl, rfl⟩

end

theorem ends_nil : Ends [] := fun _ hc => (nomatch hc)

theorem text_injective : Function.Injective text := by
  intro a b h
  have happend : a.text ++ [] = b.text ++ [] := congrArg (· ++ []) h
  exact (text_append_inj ends_nil ends_nil happend).1

end Json

end BrainCore.Foundation
