import BrainCore.Foundation.JsonText
import Mathlib.Data.Rat.Defs

/-!
# Reading JSON text

The value a compact text is of.  Reading what was written gives the value back, so a
round trip through the text changes nothing.
-/

namespace BrainCore.Foundation

/-! ## Pieces of a text -/

/-- A quoted text behind its first quote, and what follows it. -/
def parseChars : Nat → List Char → Option (List Char × List Char)
  | 0, _ => none
  | _ + 1, [] => none
  | fuel + 1, c :: rest =>
      if c = '"' then some ([], rest)
      else (unquoteChar (c :: rest)).bind fun first =>
        (parseChars fuel first.2).map fun more => (first.1 :: more.1, more.2)

theorem quoteChar_cons (c : Char) : ∃ d more, quoteChar c = d :: more ∧ d ≠ '"' := by
  cases hquoted : quoteChar c with
  | nil =>
      have hread := unquoteChar_quoteChar c []
      rw [hquoted] at hread
      cases hread
  | cons d more =>
      refine ⟨d, more, rfl, ?_⟩
      rintro rfl
      exact quoteChar_append_ne (c := c) (s := []) (t := more) (by rw [hquoted]; simp)

theorem parseChars_quoted (cs rest : List Char) {fuel : Nat} (hfuel : cs.length < fuel) :
    parseChars fuel (cs.flatMap quoteChar ++ '"' :: rest) = some (cs, rest) := by
  induction cs generalizing fuel with
  | nil =>
      obtain ⟨fuel, rfl⟩ := Nat.exists_eq_add_one.mpr hfuel
      simp [parseChars]
  | cons c cs ih =>
      obtain ⟨fuel, rfl⟩ := Nat.exists_eq_add_one.mpr (Nat.zero_lt_of_lt hfuel)
      obtain ⟨d, more, hquoted, hne⟩ := quoteChar_cons c
      have hread := unquoteChar_quoteChar c (cs.flatMap quoteChar ++ '"' :: rest)
      rw [List.flatMap_cons, List.append_assoc, hquoted] at *
      rw [List.cons_append, parseChars, if_neg hne, ← List.cons_append, hread, Option.bind_some,
        ih (Nat.lt_of_succ_lt_succ hfuel)]
      rfl

/-- The number that `numberText` writes. -/
def readNumber (s : List Char) : Rat :=
  let negative := s.head? = some '-'
  let unsigned := if negative then s.tail else s
  let num : Int := natOf (unsigned.takeWhile Char.isDigit)
  let den := (unsigned.dropWhile Char.isDigit).tail
  mkRat (if negative then -num else num) (if den = [] then 1 else natOf den)

theorem takeWhile_digits {digits rest : List Char} (hdigits : IsDigits digits)
    (hrest : ∀ c, rest.head? = some c → c.isDigit = false) :
    (digits ++ rest).takeWhile Char.isDigit = digits ∧
      (digits ++ rest).dropWhile Char.isDigit = rest := by
  have hnone : rest.takeWhile Char.isDigit = [] ∧ rest.dropWhile Char.isDigit = rest := by
    cases rest with
    | nil => exact ⟨rfl, rfl⟩
    | cons c rest => simp [hrest c rfl]
  rw [List.takeWhile_append_of_pos hdigits, List.dropWhile_append_of_pos hdigits, hnone.1, hnone.2]
  simp

theorem readNumber_numberText (q : Rat) : readNumber (numberText q) = q := by
  have hden : (if q.den = 1 then [] else '/' :: Nat.toDigits 10 q.den).tail =
      if q.den = 1 then [] else Nat.toDigits 10 q.den := by
    split <;> rfl
  have hbreak : ∀ c, (if q.den = 1 then [] else '/' :: Nat.toDigits 10 q.den).head? = some c →
      c.isDigit = false := by
    intro c hc
    split at hc
    · cases hc
    · obtain rfl := Option.some.inj hc
      rfl
  have hread : (if (if q.den = 1 then [] else Nat.toDigits 10 q.den) = [] then 1
      else natOf (if q.den = 1 then [] else Nat.toDigits 10 q.den)) = q.den := by
    by_cases hone : q.den = 1
    · simp [hone]
    · simp [hone, natOf_toDigits, Nat.toDigits_ne_nil]
  obtain ⟨htake, hdrop⟩ := takeWhile_digits (isDigits_toDigits q.num.natAbs) hbreak
  unfold readNumber numberText
  by_cases hneg : q.num < 0
  · have hnum : -(q.num.natAbs : Int) = q.num := by omega
    simp only [if_pos hneg, List.cons_append, List.nil_append, List.head?_cons,
      if_true, List.tail_cons, htake, hdrop, hden, natOf_toDigits, hread, hnum]
    exact Rat.mkRat_self q
  · have hnum : (q.num.natAbs : Int) = q.num := by omega
    have hsign : ((Nat.toDigits 10 q.num.natAbs ++
        if q.den = 1 then [] else '/' :: Nat.toDigits 10 q.den).head? = some '-') = False := by
      refine eq_false fun hsame => ?_
      cases hdigits : Nat.toDigits 10 q.num.natAbs with
      | nil => exact Nat.toDigits_ne_nil hdigits
      | cons d rest =>
          rw [hdigits] at hsame
          have hd := isDigits_toDigits q.num.natAbs d (hdigits ▸ List.mem_cons_self)
          rw [Option.some.inj hsame] at hd
          cases hd
    simp only [if_neg hneg, List.nil_append, hsign, if_false, htake, hdrop, hden, natOf_toDigits,
      hread, hnum]
    exact Rat.mkRat_self q

/-! ## Values -/

namespace Json

/-- What follows a word. -/
def word? (word s : List Char) : Option (List Char) :=
  if word.isPrefixOf s then some (s.drop word.length) else none

def isNumberChar (c : Char) : Bool := c.isDigit || c = '-' || c = '/'

mutual

/-- The value at the front of a text, and what follows it. -/
def parseValue : Nat → List Char → Option (Json × List Char)
  | 0, _ => none
  | _ + 1, [] => none
  | fuel + 1, c :: rest =>
      if c = 'n' then (word? ['u', 'l', 'l'] rest).map fun rest => (.null, rest)
      else if c = 't' then (word? ['r', 'u', 'e'] rest).map fun rest => (.bool true, rest)
      else if c = 'f' then (word? ['a', 'l', 's', 'e'] rest).map fun rest => (.bool false, rest)
      else if c = '"' then
        (parseChars (rest.length + 1) rest).map fun r => (.str (String.ofList r.1), r.2)
      else if c = '[' then
        if rest.head? = some ']' then some (.arr [], rest.tail)
        else (parseValue fuel rest).bind fun first =>
          (parseItems fuel first.2).map fun more => (.arr (first.1 :: more.1), more.2)
      else if c = '{' then
        if rest.head? = some '}' then some (.obj [], rest.tail)
        else (parseMember fuel rest).bind fun first =>
          (parseMembers fuel first.2).map fun more => (.obj (first.1 :: more.1), more.2)
      else if isNumberChar c then
        some (.num (readNumber ((c :: rest).takeWhile isNumberChar)),
          (c :: rest).dropWhile isNumberChar)
      else none

/-- The values behind a comma, up to the end of the array. -/
def parseItems : Nat → List Char → Option (List Json × List Char)
  | 0, _ => none
  | _ + 1, [] => none
  | fuel + 1, c :: rest =>
      if c = ']' then some ([], rest)
      else if c = ',' then
        (parseValue fuel rest).bind fun first =>
          (parseItems fuel first.2).map fun more => (first.1 :: more.1, more.2)
      else none

/-- A name, a colon and a value. -/
def parseMember : Nat → List Char → Option ((String × Json) × List Char)
  | 0, _ => none
  | fuel + 1, s =>
      (word? ['"'] s).bind fun rest =>
        (parseChars (rest.length + 1) rest).bind fun name =>
          (word? [':'] name.2).bind fun rest =>
            (parseValue fuel rest).map fun value => ((String.ofList name.1, value.1), value.2)

/-- The members behind a comma, up to the end of the object. -/
def parseMembers : Nat → List Char → Option (List (String × Json) × List Char)
  | 0, _ => none
  | _ + 1, [] => none
  | fuel + 1, c :: rest =>
      if c = '}' then some ([], rest)
      else if c = ',' then
        (parseMember fuel rest).bind fun first =>
          (parseMembers fuel first.2).map fun more => (first.1 :: more.1, more.2)
      else none

end

/-- `JSON.parse` of a text without white space; `none` is its `SyntaxError`. -/
def parse (s : List Char) : Option Json :=
  (parseValue (2 * s.length + 1) s).bind fun r => if r.2 = [] then some r.1 else none

/-! ## What was written is read back -/

theorem word?_append (word s : List Char) : word? word (word ++ s) = some s := by
  unfold word?
  rw [if_pos (by simp), List.drop_left]

theorem takeWhile_number (q : Rat) {s : List Char} (hs : Ends s) :
    (numberText q ++ s).takeWhile isNumberChar = numberText q ∧
      (numberText q ++ s).dropWhile isNumberChar = s := by
  have hall : ∀ c ∈ numberText q, isNumberChar c = true := fun c hc => by
    simpa [isNumberChar, IsNumberChar, or_assoc] using isNumberChar_of_mem hc
  have hnone : s.takeWhile isNumberChar = [] ∧ s.dropWhile isNumberChar = s := by
    cases s with
    | nil => exact ⟨rfl, rfl⟩
    | cons c rest =>
        have hc : isNumberChar c = false := by
          rcases hs c rfl with rfl | rfl | rfl <;> rfl
        simp [hc]
  rw [List.takeWhile_append_of_pos hall, List.dropWhile_append_of_pos hall, hnone.1, hnone.2]
  simp

theorem length_toList_le (name : String) : name.toList.length ≤ (name.toList.flatMap quoteChar).length := by
  induction name.toList with
  | nil => exact Nat.le_refl _
  | cons c cs ih =>
      obtain ⟨d, more, hquoted, -⟩ := quoteChar_cons c
      rw [List.flatMap_cons, List.length_append, hquoted, List.length_cons, List.length_cons]
      omega

theorem parseChars_name (name : String) (s : List Char) :
    parseChars ((name.toList.flatMap quoteChar ++ '"' :: s).length + 1)
      (name.toList.flatMap quoteChar ++ '"' :: s) = some (name.toList, s) := by
  refine parseChars_quoted _ _ ?_
  have hle := length_toList_le name
  rw [List.length_append]
  omega

/-- The first character of a value is none of those that end an array. -/
theorem text_head_ne (value : Json) (s : List Char) : (value.text ++ s).head? ≠ some ']' := by
  obtain ⟨c, rest, htext, hlead⟩ := text_lead value
  rw [htext]
  rintro ⟨⟩
  have hclose : leadKind ']' = 7 := rfl
  rw [hclose] at hlead
  cases value with
  | bool value => cases value <;> cases hlead
  | null | num | str | arr | obj => cases hlead

mutual

theorem parseValue_text : ∀ (value : Json) {s : List Char} {fuel : Nat}, Ends s →
    2 * value.text.length < fuel → parseValue fuel (value.text ++ s) = some (value, s)
  | .null, s, fuel + 1, _, _ => by
      change (word? ['u', 'l', 'l'] (['u', 'l', 'l'] ++ s)).map _ = _
      rw [word?_append]
      rfl
  | .bool true, s, fuel + 1, _, _ => by
      change (word? ['r', 'u', 'e'] (['r', 'u', 'e'] ++ s)).map _ = _
      rw [word?_append]
      rfl
  | .bool false, s, fuel + 1, _, _ => by
      change (word? ['a', 'l', 's', 'e'] (['a', 'l', 's', 'e'] ++ s)).map _ = _
      rw [word?_append]
      rfl
  | .num q, s, fuel + 1, hs, _ => by
      obtain ⟨c, rest, htext, hlead⟩ := text_lead (.num q)
      have hnumber : numberText q = c :: rest := htext
      have hc : IsNumberChar c := isNumberChar_of_mem (hnumber ▸ List.mem_cons_self)
      obtain ⟨htake, hdrop⟩ := takeWhile_number q hs
      have hne : ∀ d ∈ ['n', 't', 'f', '"', '[', '{'], c ≠ d := by
        rintro d hd rfl
        simp only [List.mem_cons, List.not_mem_nil, or_false] at hd
        rcases hd with rfl | rfl | rfl | rfl | rfl | rfl <;> cases hlead
      simp only [List.mem_cons, List.not_mem_nil, or_false, forall_eq_or_imp, forall_eq] at hne
      have hnum : isNumberChar c = true := by
        simpa [isNumberChar, IsNumberChar, or_assoc] using hc
      rw [hnumber] at htake hdrop
      rw [htext, List.cons_append, parseValue, if_neg hne.1, if_neg hne.2.1, if_neg hne.2.2.1,
        if_neg hne.2.2.2.1, if_neg hne.2.2.2.2.1, if_neg hne.2.2.2.2.2, if_pos hnum,
        ← List.cons_append, htake, hdrop, ← hnumber, readNumber_numberText]
  | .str name, s, fuel + 1, _, _ => by
      have hquote : text (.str name) ++ s = '"' :: (name.toList.flatMap quoteChar ++ '"' :: s) := by
        simp [text, quote]
      rw [hquote]
      change (parseChars _ _).map _ = _
      rw [parseChars_name]
      simp
  | .arr [], s, fuel + 1, _, _ => rfl
  | .arr (value :: rest), s, fuel + 1, _, hfuel => by
      have htext : text (.arr (value :: rest)) ++ s =
          '[' :: (value.text ++ (moreItems rest ++ s)) := by
        simp [text, itemsText]
      have hlength : (text (.arr (value :: rest))).length =
          value.text.length + (moreItems rest).length + 1 := by
        simp [text, itemsText]
      rw [hlength] at hfuel
      rw [htext]
      change (if (value.text ++ (moreItems rest ++ s)).head? = some ']' then _ else _) = _
      rw [if_neg (text_head_ne value _),
        parseValue_text value (ends_moreItems rest s) (by omega), Option.bind_some,
        parseItems_more rest (by omega)]
      rfl
  | .obj [], s, fuel + 1, _, _ => rfl
  | .obj ((name, value) :: rest), s, fuel + 2, _, hfuel => by
      have htext : text (.obj ((name, value) :: rest)) ++ s =
          '{' :: (quote name ++ ':' :: (value.text ++ (moreMembers rest ++ s))) := by
        simp [text, membersText]
      have hlength : (text (.obj ((name, value) :: rest))).length =
          (quote name).length + value.text.length + (moreMembers rest).length + 2 := by
        simp [text, membersText]
        omega
      rw [hlength] at hfuel
      rw [htext]
      change (parseMember (fuel + 1) _).bind _ = _
      rw [parseMember_text name value (ends_moreMembers rest s) (by omega), Option.bind_some,
        parseMembers_more rest (by omega)]
      rfl
  | .obj ((name, value) :: rest), s, 1, _, hfuel => by
      have hpos : 0 < (text (.obj ((name, value) :: rest))).length := by simp [text]
      omega

theorem parseMember_text : ∀ (name : String) (value : Json) {s : List Char} {fuel : Nat}, Ends s →
    2 * value.text.length + 2 < fuel →
      parseMember fuel (quote name ++ ':' :: (value.text ++ s)) = some ((name, value), s)
  | name, value, s, fuel + 1, hs, hfuel => by
      have hquote : quote name ++ ':' :: (value.text ++ s) =
          ['"'] ++ (name.toList.flatMap quoteChar ++ '"' :: ([':'] ++ (value.text ++ s))) := by
        simp [quote]
      rw [hquote, parseMember, word?_append, Option.bind_some, parseChars_name, Option.bind_some,
        word?_append, Option.bind_some, parseValue_text value hs (by omega)]
      simp

theorem parseItems_more : ∀ (items : List Json) {s : List Char} {fuel : Nat},
    2 * (moreItems items).length < fuel → parseItems fuel (moreItems items ++ s) = some (items, s)
  | [], s, fuel + 1, _ => rfl
  | value :: rest, s, fuel + 1, hfuel => by
      have htext : moreItems (value :: rest) ++ s =
          ',' :: (value.text ++ (moreItems rest ++ s)) := by
        simp [moreItems]
      have hlength : (moreItems (value :: rest)).length =
          value.text.length + (moreItems rest).length + 1 := by
        simp [moreItems]
      rw [hlength] at hfuel
      rw [htext]
      change (parseValue fuel _).bind _ = _
      rw [parseValue_text value (ends_moreItems rest s) (by omega), Option.bind_some,
        parseItems_more rest (by omega)]
      rfl

theorem parseMembers_more : ∀ (members : List (String × Json)) {s : List Char} {fuel : Nat},
    2 * (moreMembers members).length < fuel →
      parseMembers fuel (moreMembers members ++ s) = some (members, s)
  | [], s, fuel + 1, _ => rfl
  | (name, value) :: rest, s, fuel + 1, hfuel => by
      have htext : moreMembers ((name, value) :: rest) ++ s =
          ',' :: (quote name ++ ':' :: (value.text ++ (moreMembers rest ++ s))) := by
        simp [moreMembers]
      have hlength : (moreMembers ((name, value) :: rest)).length =
          (quote name).length + value.text.length + (moreMembers rest).length + 2 := by
        simp [moreMembers]
        omega
      rw [hlength] at hfuel
      rw [htext]
      change (parseMember fuel _).bind _ = _
      rw [parseMember_text name value (ends_moreMembers rest s) (by omega), Option.bind_some,
        parseMembers_more rest (by omega)]
      rfl

end

/-- A round trip through the text changes nothing. -/
theorem parse_text (value : Json) : parse value.text = some value := by
  have hread := parseValue_text value ends_nil (Nat.lt_succ_self (2 * value.text.length))
  rw [List.append_nil] at hread
  rw [parse, hread]
  rfl

end Json

end BrainCore.Foundation
