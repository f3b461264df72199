import BrainCore.Foundation.Text
import BrainCore.Shared.Decimal

/-!
# The decimal helpers of the policy VM, the gate and the evidence validator

`services/policy/src/vm.ts`, `shared/src/gate/gate.ts` and
`shared/src/gate/evidence-validator.ts` each carry their own copy of the same
string arithmetic.  The copies share `normalizeDecimal`; on strings of the
amount grammar they compare and add the values the strings denote.
-/

namespace BrainCore.Shared

open BrainCore.Foundation

/-! ## Normal form -/

structure NormalizedDecimal where
  negative : Bool
  int : List Char
  frac : List Char

/-- `normalizeDecimal` of the VM, `norm` of the gate and of the evidence validator. -/
def normalizeDecimal (s : String) : NormalizedDecimal :=
  let str := trim s.toList
  let negative := str.head? = some '-'
  let str := if negative then str.tail else str
  -- `const [intRaw, fracRaw = ""] = str.split(".")`
  let intRaw := str.takeWhile (· ≠ '.')
  let fracRaw := ((str.dropWhile (· ≠ '.')).tail).takeWhile (· ≠ '.')
  { negative := negative
    int := stripLeading intRaw
    frac := padEndSlice 18 fracRaw }

/-! ## `services/policy/src/vm.ts` -/

def compareDecimal (a b : String) : Int :=
  let na := normalizeDecimal a
  let nb := normalizeDecimal b
  if na.negative ≠ nb.negative then (if na.negative then -1 else 1)
  else
    let intCmp := compareBig na.int nb.int
    if intCmp ≠ 0 then (if na.negative then -intCmp else intCmp)
    else
      let fracCmp := compareBig na.frac nb.frac
      if fracCmp = 0 then 0
      else if na.negative then -fracCmp else fracCmp

/-- `BigInt(text)`, which throws on a text that is not an integer. -/
def bigInt (s : List Char) : Except String Int :=
  match bigInt? s with
  | some n => .ok n
  | none => .error ("Cannot convert " ++ String.ofList s ++ " to a BigInt")

/-- The text `addDecimal` prints for a sum of units. -/
def renderUnits (sum : Int) : String :=
  String.ofList ((if sum < 0 then ['-'] else []) ++ fixedPoint 18 sum.natAbs)

def addDecimal (a b : String) : Except String String := do
  let na := normalizeDecimal a
  let nb := normalizeDecimal b
  let sa ← bigInt (na.int ++ na.frac)
  let sb ← bigInt (nb.int ++ nb.frac)
  pure (renderUnits ((if na.negative then -1 else 1) * sa + (if nb.negative then -1 else 1) * sb))

/-! ## `shared/src/gate/gate.ts` -/

/-- The gate's copy has no case of its own for equal fractions. -/
def cmpDecimal (a b : String) : Int :=
  let na := normalizeDecimal a
  let nb := normalizeDecimal b
  if na.negative ≠ nb.negative then (if na.negative then -1 else 1)
  else
    let intCmp := compareBig na.int nb.int
    if intCmp ≠ 0 then (if na.negative then -intCmp else intCmp)
    else
      let fracCmp := compareBig na.frac nb.frac
      if na.negative then -fracCmp else fracCmp

/-- `sum.toString()`. -/
def intText (n : Int) : List Char :=
  (if n < 0 then ['-'] else []) ++ Nat.toDigits 10 n.natAbs

/-- The gate's sum drops both signs. -/
def addDecimalString (a b : String) : Except String String := do
  let na := normalizeDecimal a
  let nb := normalizeDecimal b
  let sa ← bigInt (na.int ++ na.frac)
  let sb ← bigInt (nb.int ++ nb.frac)
  pure (String.ofList (fixedPointText 18 (intText (sa + sb))))

/-! ## `shared/src/gate/evidence-validator.ts` -/

namespace EvidenceDecimal

def units (s : String) : Except String Int :=
  let n := normalizeDecimal s
  bigInt ((if n.negative then ['-'] else []) ++ (n.int ++ n.frac))

def compareDecimal (a b : String) : Except String Int := do
  let ia ← units a
  let ib ← units b
  pure (sign3 ia ib)

def subtractDecimal (a b : String) : Except String String := do
  let ia ← units a
  let ib ← units b
  pure (renderUnits (ia - ib))

end EvidenceDecimal

/-- The copies of the VM and of the gate agree on all strings. -/
theorem cmpDecimal_eq_compareDecimal (a b : String) : cmpDecimal a b = compareDecimal a b := by
  unfold cmpDecimal compareDecimal
  by_cases h : compareBig (normalizeDecimal a).frac (normalizeDecimal b).frac = 0 <;> simp [h]

/-! ## On strings of the grammar -/

theorem renderUnits_wellFormed (sum : Int) : amountValueRe (renderUnits sum) = true := by
  obtain ⟨int, frac, htext, hparts⟩ := fixedPoint_parts 18 sum.natAbs
  have h := DecimalString.wellFormed_of_parts (decide (sum < 0)) hparts.intDigits
    hparts.intNonempty hparts.fracDigits hparts.fracShort
  rw [renderUnits, htext]
  simpa using h

/-- The string of the grammar a sum of units is printed as. -/
def decimalOfUnits (sum : Int) : DecimalString := ⟨renderUnits sum, renderUnits_wellFormed sum⟩

theorem sign_mul_eq_signed (negative : Bool) (m : Nat) :
    (if negative then -1 else 1) * (m : Int) = signed negative m := by
  cases negative <;> simp [signed]

theorem natAbs_signed (negative : Bool) (m : Nat) : (signed negative m).natAbs = m := by
  cases negative <;> simp [signed]

theorem signed_natAbs (n : Int) : signed (decide (n < 0)) n.natAbs = n := by
  unfold signed
  by_cases h : n < 0
  · simp only [h, decide_true, if_true]
    omega
  · simp only [h, decide_false, Bool.false_eq_true, if_false]
    omega

theorem signed_le (negative : Bool) (m : Nat) : signed negative m ≤ m := by
  cases negative
  · exact le_rfl
  · simp only [signed, if_true]
    omega

namespace DecimalString

theorem text_eq (s : DecimalString) :
    s.text.toList = (if s.negative then ['-'] else []) ++ s.unsigned := by
  unfold unsigned negative
  cases h : s.text.toList with
  | nil => simp
  | cons c rest =>
      by_cases hc : c = '-'
      · simp [hc]
      · simp [hc]

/-- No character of the grammar is white space. -/
theorem not_space (s : DecimalString) : ∀ c ∈ s.text.toList, isJsSpace c = false := by
  intro c hc
  have hparts := s.parts
  rw [text_eq, List.mem_append] at hc
  rcases hc with hc | hc
  · split at hc
    · rw [List.mem_singleton.mp hc]
      decide
    · cases hc
  · rw [hparts.unsigned_eq, List.mem_append] at hc
    rcases hc with hc | hc
    · exact digit_not_space (hparts.intDigits c hc)
    · unfold dotted at hc
      split at hc
      · cases hc
      · rcases List.mem_cons.mp hc with rfl | hc
        · decide
        · exact digit_not_space (hparts.fracDigits c hc)

theorem trim_text (s : DecimalString) : trim s.text.toList = s.text.toList :=
  trim_of_not_space s.not_space

theorem split_dot {int frac : List Char} (digits : IsDigits int) (fracDigits : IsDigits frac) :
    (int ++ dotted frac).takeWhile (· ≠ '.') = int ∧
      (((int ++ dotted frac).dropWhile (· ≠ '.')).tail).takeWhile (· ≠ '.') = frac := by
  have before : ∀ c ∈ int, (decide (c ≠ '.')) = true := fun c hc => by
    simpa using (digit_ne (digits c hc)).2
  have inside : ∀ c ∈ frac, c ≠ '.' := fun c hc => (digit_ne (fracDigits c hc)).2
  rw [List.takeWhile_append_of_pos before, List.dropWhile_append_of_pos before]
  unfold dotted
  split
  · rename_i h
    simp [h]
  · simpa [List.takeWhile_eq_self_iff] using inside

/-- The normal form of an amount: its sign and its digits without superfluous zeros. -/
theorem normalize (s : DecimalString) :
    normalizeDecimal s.text = ⟨s.negative, stripLeading s.int, padEndSlice 18 s.frac⟩ := by
  have hparts := s.parts
  obtain ⟨hint, hfrac⟩ := split_dot hparts.intDigits hparts.fracDigits
  have hunsigned : (if s.text.toList.head? = some '-' then s.text.toList.tail
      else s.text.toList) = s.int ++ dotted s.frac := by
    rw [← hparts.unsigned_eq, unsigned, negative]
    simp
  rw [normalizeDecimal, s.trim_text]
  simp only [hunsigned, hint, hfrac]
  rfl

theorem magnitude_eq (s : DecimalString) :
    s.magnitude = natOf (stripLeading s.int) * 10 ^ 18 + natOf (padEndSlice 18 s.frac) := by
  rw [magnitude, natOf_stripLeading, natOf_padEndSlice s.parts.fracShort]

theorem normalize_negative (s : DecimalString) :
    (normalizeDecimal s.text).negative = s.negative := by
  rw [normalize]

theorem normalize_digits (s : DecimalString) :
    IsDigits ((normalizeDecimal s.text).int ++ (normalizeDecimal s.text).frac) ∧
      (normalizeDecimal s.text).int ++ (normalizeDecimal s.text).frac ≠ [] ∧
      natOf ((normalizeDecimal s.text).int ++ (normalizeDecimal s.text).frac) = s.magnitude := by
  rw [normalize]
  refine ⟨isDigits_append.mpr ⟨isDigits_stripLeading s.parts.intDigits,
    isDigits_padEndSlice s.parts.fracDigits 18⟩, ?_, ?_⟩
  · exact List.append_ne_nil_of_left_ne_nil (stripped_stripLeading s.int).ne_nil _
  · rw [natOf_append, length_padEndSlice, ← magnitude_eq]

theorem bigInt_normalize (s : DecimalString) :
    bigInt ((normalizeDecimal s.text).int ++ (normalizeDecimal s.text).frac) = .ok (s.magnitude : Int) := by
  obtain ⟨digits, nonempty, hvalue⟩ := s.normalize_digits
  rw [bigInt, bigInt?_digits digits nonempty, hvalue]

theorem evidence_units (s : DecimalString) : EvidenceDecimal.units s.text = .ok s.units := by
  obtain ⟨digits, nonempty, hvalue⟩ := s.normalize_digits
  rw [EvidenceDecimal.units, s.normalize_negative, DecimalString.units, ← hvalue]
  generalize (normalizeDecimal s.text).int ++ (normalizeDecimal s.text).frac = all at digits nonempty
  cases s.negative with
  | true =>
      rw [if_pos rfl, List.singleton_append, bigInt, bigInt?_neg_digits digits nonempty]
      exact congrArg Except.ok (if_pos rfl).symm
  | false =>
      rw [if_neg (by simp), List.nil_append, bigInt, bigInt?_digits digits nonempty]
      exact congrArg Except.ok (if_neg (by simp)).symm

theorem natAbs_units (s : DecimalString) : s.units.natAbs = s.magnitude :=
  natAbs_signed _ _

theorem units_le_magnitude (s : DecimalString) : s.units ≤ s.magnitude :=
  signed_le _ _

end DecimalString

/-- The integer parts decide, and on equal ones the fractions. -/
theorem sign3_lex {m n p q e : Nat} (hp : p < e) (hq : q < e) :
    sign3 (m * e + p) (n * e + q) = if sign3 m n ≠ 0 then sign3 m n else sign3 p q := by
  have apart : ∀ {u v x y : Nat}, u < v → x < e → u * e + x < v * e + y := by
    intro u v x y huv hx
    calc u * e + x < u * e + e := Nat.add_lt_add_left hx _
      _ = (u + 1) * e := by ring
      _ ≤ v * e := Nat.mul_le_mul_right _ huv
      _ ≤ v * e + y := Nat.le_add_right _ _
  rcases lt_trichotomy m n with h | h | h
  · have hlt := apart (y := q) h hp
    simp [sign3, h, hlt]
  · subst h
    rw [if_neg (by simp [sign3])]
    exact sign3_congr (by omega) (by omega)
  · have hlt := apart (y := p) h hq
    simp [sign3, h, hlt, h.not_gt, hlt.not_gt]

/-- Signs first, then magnitudes. -/
def compareSigned (na nb : Bool) (m n : Nat) : Int :=
  if na ≠ nb then (if na then -1 else 1) else if na then -sign3 m n else sign3 m n

theorem signed_le_of_compareSigned {na nb : Bool} {m n : Nat} (h : compareSigned na nb m n ≤ 0) :
    signed na m ≤ signed nb n := by
  unfold compareSigned at h
  unfold signed
  cases na <;> cases nb
  · simpa [sign3_nonpos] using h
  · simp at h
  · simp only [Bool.false_eq_true, if_true, if_false]
    omega
  · have : sign3 n m ≤ 0 := by simpa [sign3_swap] using h
    simpa using sign3_nonpos.mp this

theorem signed_ge_of_compareSigned {na nb : Bool} {m n : Nat} (h : 0 ≤ compareSigned na nb m n) :
    signed nb n ≤ signed na m := by
  unfold compareSigned at h
  unfold signed
  cases na <;> cases nb
  · simpa [sign3_nonneg] using h
  · simp only [Bool.false_eq_true, if_true, if_false]
    omega
  · simp at h
  · have : 0 ≤ sign3 n m := by simpa [sign3_swap] using h
    simpa using sign3_nonneg.mp this

theorem compare_parts (na nb : Bool) (intCmp fracCmp : Int) :
    (if na ≠ nb then (if na then -1 else 1)
      else if intCmp ≠ 0 then (if na then -intCmp else intCmp)
      else if fracCmp = 0 then 0 else if na then -fracCmp else fracCmp) =
    if na ≠ nb then (if na then -1 else 1)
      else if na then -(if intCmp ≠ 0 then intCmp else fracCmp)
      else if intCmp ≠ 0 then intCmp else fracCmp := by
  by_cases h : fracCmp = 0 <;> by_cases h' : intCmp = 0 <;> simp [h, h']

/-- The comparison of two normal forms. -/
theorem compareDecimal_eq (a b : DecimalString) :
    compareDecimal a.text b.text =
      compareSigned a.negative b.negative a.magnitude b.magnitude := by
  have ha := a.parts
  have hb := b.parts
  have intCmp := compareBig_eq (isDigits_stripLeading ha.intDigits) (isDigits_stripLeading hb.intDigits)
    (stripped_stripLeading a.int) (stripped_stripLeading b.int)
  have fracDigitsA := isDigits_padEndSlice ha.fracDigits 18
  have fracDigitsB := isDigits_padEndSlice hb.fracDigits 18
  have fracCmp := compareBig_eq_of_length (a := padEndSlice 18 a.frac) (b := padEndSlice 18 b.frac)
    (by simp) fracDigitsA fracDigitsB
  have shortA := natOf_lt fracDigitsA
  have shortB := natOf_lt fracDigitsB
  rw [length_padEndSlice] at shortA shortB
  rw [compareSigned, a.magnitude_eq, b.magnitude_eq,
    sign3_lex (m := natOf (stripLeading a.int)) (n := natOf (stripLeading b.int)) shortA shortB,
    ← intCmp, ← fracCmp, compareDecimal, a.normalize, b.normalize]
  exact compare_parts _ _ _ _

/-- A comparison at most zero is an inequality of values. -/
theorem units_le_of_compareDecimal {a b : DecimalString}
    (h : compareDecimal a.text b.text ≤ 0) : a.units ≤ b.units := by
  rw [compareDecimal_eq] at h
  exact signed_le_of_compareSigned h

/-- A comparison at least zero is an inequality of values. -/
theorem units_ge_of_compareDecimal {a b : DecimalString}
    (h : 0 ≤ compareDecimal a.text b.text) : b.units ≤ a.units := by
  rw [compareDecimal_eq] at h
  exact signed_ge_of_compareSigned h

/-! ## Sums -/

/-- A printed sum denotes that sum. -/
theorem units_renderUnits (sum : Int) :
    (decimalOfUnits sum).units = sum := by
  obtain ⟨int, frac, htext, hparts⟩ := fixedPoint_parts 18 sum.natAbs
  have text : (renderUnits sum).toList =
      (if decide (sum < 0) then ['-'] else []) ++ (int ++ dotted frac) := by
    rw [renderUnits, String.toList_ofList, htext]
    simp
  obtain ⟨hneg, hint, hfrac⟩ := DecimalString.of_parts (s := decimalOfUnits sum) text
    hparts.intDigits hparts.intNonempty
  rw [DecimalString.units, DecimalString.magnitude, hneg, hint, hfrac, hparts.units]
  exact signed_natAbs sum

/-- The VM adds the values of two amounts. -/
theorem addDecimal_text (a b : DecimalString) :
    addDecimal a.text b.text = .ok (decimalOfUnits (a.units + b.units)).text := by
  unfold addDecimal
  dsimp only
  rw [a.bigInt_normalize, b.bigInt_normalize, a.normalize_negative, b.normalize_negative,
    DecimalString.units, DecimalString.units, ← sign_mul_eq_signed, ← sign_mul_eq_signed]
  exact congrArg Except.ok rfl

/-- A sum of natural numbers prints without a sign. -/
theorem render_natCast_add (m n : Nat) :
    String.ofList (fixedPointText 18 (intText (m + n))) = renderUnits (m + n) := by
  have nonneg : ¬(m : Int) + n < 0 := by omega
  rw [intText, renderUnits, if_neg nonneg, List.nil_append, List.nil_append, fixedPoint]

/-- The gate adds absolute values. -/
theorem addDecimalString_text (a b : DecimalString) :
    addDecimalString a.text b.text = .ok (decimalOfUnits (a.magnitude + b.magnitude)).text := by
  unfold addDecimalString
  dsimp only
  rw [a.bigInt_normalize, b.bigInt_normalize]
  exact congrArg Except.ok (render_natCast_add _ _)

/-- The gate never adds less than the exact sum. -/
theorem units_add_le_magnitudes (a b : DecimalString) :
    a.units + b.units ≤ (decimalOfUnits (a.magnitude + b.magnitude)).units := by
  rw [units_renderUnits]
  exact add_le_add a.units_le_magnitude b.units_le_magnitude

/-- The evidence validator compares and subtracts values. -/
theorem evidence_compareDecimal (a b : DecimalString) :
    EvidenceDecimal.compareDecimal a.text b.text = .ok (sign3 a.units b.units) := by
  rw [EvidenceDecimal.compareDecimal, a.evidence_units, b.evidence_units]
  rfl

theorem evidence_subtractDecimal (a b : DecimalString) :
    EvidenceDecimal.subtractDecimal a.text b.text =
      .ok (decimalOfUnits (a.units - b.units)).text := by
  rw [EvidenceDecimal.subtractDecimal, a.evidence_units, b.evidence_units]
  rfl

end BrainCore.Shared
