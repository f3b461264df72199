import BrainCore.Foundation.Result
import BrainCore.Foundation.Text

/-!
# Time windows

The five-field cron subset of `services/policy/src/vm.ts`: the fields a
document may use and the instants they match, in UTC.
-/

namespace BrainCore.Policy

open BrainCore.Foundation

/-- Milliseconds since the epoch. -/
abbrev Instant := Nat

def utcMinutes (at_ : Instant) : Nat := at_ / 60000 % 60

def utcHours (at_ : Instant) : Nat := at_ / 3600000 % 24

/-- `getUTCDay`: the epoch was a Thursday. -/
def utcDay (at_ : Instant) : Nat := (at_ / 86400000 + 4) % 7

/-- Month and day of month, from the day number in years that start in March. -/
def utcMonthDate (at_ : Instant) : Nat × Nat :=
  let z := at_ / 86400000 + 719468
  let dayOfEra := z % 146097
  let yearOfEra := (dayOfEra - dayOfEra / 1460 + dayOfEra / 36524 - dayOfEra / 146096) / 365
  let dayOfYear := dayOfEra - (365 * yearOfEra + yearOfEra / 4 - yearOfEra / 100)
  let shifted := (5 * dayOfYear + 2) / 153
  (if shifted < 10 then shifted + 3 else shifted - 9, dayOfYear - (153 * shifted + 2) / 5 + 1)

def cronFields (expr : String) : List (List Char) := splitWhite [] (trim expr.toList)

def matchField (field : List Char) (value : Nat) (isDayOfWeek : Bool := false) : Bool :=
  field = ['*'] ||
    (splitOn [','] field).any fun token =>
      match parseInt10 token with
      | none => false
      | some n => n = value || (isDayOfWeek && n = 7 && value = 0)

def matchesCron (expr : String) (at_ : Instant) : Bool :=
  match cronFields expr with
  | [min, hr, dom, mon, dow] =>
      matchField min (utcMinutes at_) && matchField hr (utcHours at_) &&
        matchField dom (utcMonthDate at_).2 && matchField mon (utcMonthDate at_).1 &&
        matchField dow (utcDay at_) true
  | _ => false

/-- A field's name and range. -/
def cronFieldTable : List (String × Nat × Nat) :=
  [("minute", 0, 59), ("hour", 0, 23), ("day-of-month", 1, 31), ("month", 1, 12),
    ("day-of-week", 0, 7)]

def validateCronToken (name : String) (field : List Char) (lo hi : Nat) (token : List Char) :
    Except String Unit :=
  if ¬(token ≠ [] ∧ token.all Char.isDigit) then
    .error (name ++ " field \"" ++ String.ofList field ++ "\" has non-numeric token \"" ++
      String.ofList token ++ "\" -- only \"*\" and comma-separated integers are supported")
  else if natOf token < lo ∨ hi < natOf token then
    .error (name ++ " value " ++ toString (natOf token) ++ " is out of range " ++ toString lo ++
      "-" ++ toString hi)
  else .ok ()

def validateCronField (field : List Char) (name : String) (lo hi : Nat) : Except String Unit :=
  if field = ['*'] then .ok ()
  else if field.any fun c => c ∈ ['-', '/', '?', 'L', 'W', '#'] then
    .error (name ++ " field \"" ++ String.ofList field ++ "\" uses an unsupported construct -- " ++
      "ranges, steps, and names are not supported, only \"*\" and comma-separated integers")
  else (splitOn [','] field).forM (validateCronToken name field lo hi)

def validateCronExpression (expr : String) : Except String Unit :=
  let fields := cronFields expr
  if fields.length ≠ 5 then
    .error ("must have exactly 5 space-separated fields (minute hour day-of-month month " ++
      "day-of-week); got " ++ toString fields.length)
  else (fields.zip cronFieldTable).forM fun entry =>
    validateCronField entry.1 entry.2.1 entry.2.2.1 entry.2.2.2

/-!
## What a time window says

The validator and the matcher read the five fields apart.  A field that is accepted is a
star or a list of numbers in its range, and it matches the values on its list; among
the days of the week seven is Sunday.
-/

/-! ## The fields on their own -/

/-- What the getters of a `Date` in UTC return. -/
structure CivilTime where
  minute : Nat
  hour : Nat
  date : Nat
  month : Nat
  day : Nat

def Instant.civil (at_ : Instant) : CivilTime where
  minute := utcMinutes at_
  hour := utcHours at_
  date := (utcMonthDate at_).2
  month := (utcMonthDate at_).1
  day := utcDay at_

/-- `matchesCron` on what the getters return. -/
def matchesCivil (expr : String) (t : CivilTime) : Bool :=
  match cronFields expr with
  | [min, hr, dom, mon, dow] =>
      matchField min t.minute && matchField hr t.hour && matchField dom t.date &&
        matchField mon t.month && matchField dow t.day true
  | _ => false

/-- The values a field lists. -/
def listedValues (field : List Char) : List Nat := (splitOn [','] field).map natOf

/-- A star, or the value is on the list. -/
def FieldHolds (field : List Char) (value : Nat) : Prop :=
  field = ['*'] ∨ value ∈ listedValues field

/-- A star, or the day is on the list, where seven means Sunday. -/
def DayHolds (field : List Char) (day : Nat) : Prop :=
  field = ['*'] ∨ day ∈ listedValues field ∨ day = 0 ∧ 7 ∈ listedValues field

/-- A star, or a list of numbers in a range. -/
structure CronField (field : List Char) (lo hi : Nat) : Prop where
  tokens : field = ['*'] ∨ ∀ token ∈ splitOn [','] field,
    token ≠ [] ∧ IsDigits token ∧ lo ≤ natOf token ∧ natOf token ≤ hi

/-! ## What is accepted -/

theorem validateCronToken_ok {name : String} {field token : List Char} {lo hi : Nat}
    (h : validateCronToken name field lo hi token = .ok ()) :
    token ≠ [] ∧ IsDigits token ∧ lo ≤ natOf token ∧ natOf token ≤ hi := by
  unfold validateCronToken at h
  split at h
  · cases h
  · rename_i hdigits
    split at h
    · cases h
    · rename_i hrange
      rw [not_or, Nat.not_lt, Nat.not_lt] at hrange
      obtain ⟨hne, hall⟩ := Decidable.not_not.mp hdigits
      exact ⟨hne, fun c hc => List.all_eq_true.mp hall c hc, hrange⟩

theorem forM_ok {ε α : Type} {check : α → Except ε Unit} {items : List α}
    (h : items.forM check = .ok ()) : ∀ item ∈ items, check item = .ok () := by
  induction items with
  | nil => simp
  | cons item rest ih =>
      obtain ⟨_, hitem, hrest⟩ := bind_ok.mp (show (check item >>= fun _ => rest.forM check) = _ from h)
      intro other hother
      obtain rfl | hother := List.mem_cons.mp hother
      · exact hitem
      · exact ih hrest other hother

theorem validateCronField_ok {field : List Char} {name : String} {lo hi : Nat}
    (h : validateCronField field name lo hi = .ok ()) : CronField field lo hi := by
  unfold validateCronField at h
  split at h
  · rename_i hstar
    exact ⟨.inl hstar⟩
  · split at h
    · cases h
    · exact ⟨.inr fun token htoken => validateCronToken_ok (forM_ok h token htoken)⟩

theorem exists_five {α : Type} : ∀ {items : List α}, items.length = 5 →
    ∃ a b c d e, items = [a, b, c, d, e]
  | [a, b, c, d, e], _ => ⟨a, b, c, d, e, rfl⟩

/-- An expression that is accepted has its five fields, each in its range. -/
theorem validateCronExpression_ok {expr : String} (h : validateCronExpression expr = .ok ()) :
    ∃ min hr dom mon dow, cronFields expr = [min, hr, dom, mon, dow] ∧ CronField min 0 59 ∧
      CronField hr 0 23 ∧ CronField dom 1 31 ∧ CronField mon 1 12 ∧ CronField dow 0 7 := by
  unfold validateCronExpression at h
  dsimp only at h
  split at h
  · cases h
  · rename_i hlength
    obtain ⟨min, hr, dom, mon, dow, hfields⟩ := exists_five (Decidable.not_not.mp hlength)
    rw [hfields] at h
    have hall := forM_ok h
    refine ⟨min, hr, dom, mon, dow, hfields, ?_, ?_, ?_, ?_, ?_⟩
    · exact validateCronField_ok (hall (min, "minute", 0, 59) (by simp [cronFieldTable]))
    · exact validateCronField_ok (hall (hr, "hour", 0, 23) (by simp [cronFieldTable]))
    · exact validateCronField_ok (hall (dom, "day-of-month", 1, 31) (by simp [cronFieldTable]))
    · exact validateCronField_ok (hall (mon, "month", 1, 12) (by simp [cronFieldTable]))
    · exact validateCronField_ok (hall (dow, "day-of-week", 0, 7) (by simp [cronFieldTable]))

/-! ## What is matched -/

/-- On an accepted field the matcher reads the values it lists. -/
theorem matchField_iff {field : List Char} {lo hi value : Nat} {isDayOfWeek : Bool}
    (h : CronField field lo hi) : matchField field value isDayOfWeek = true ↔
      field = ['*'] ∨ ∃ n ∈ listedValues field,
        n = value ∨ isDayOfWeek = true ∧ n = 7 ∧ value = 0 := by
  unfold matchField listedValues
  rw [Bool.or_eq_true, decide_eq_true_eq, List.any_eq_true]
  refine or_congr_right' fun hstar => ?_
  have htokens := h.tokens.resolve_left hstar
  have hseven : ∀ n : Nat, (n : Int) = 7 ↔ n = 7 := fun n => by omega
  constructor
  · rintro ⟨token, htoken, hmatch⟩
    obtain ⟨hne, hdigits, -⟩ := htokens token htoken
    rw [parseInt10_digits hdigits hne] at hmatch
    refine ⟨natOf token, List.mem_map_of_mem htoken, ?_⟩
    simpa [and_assoc, hseven] using hmatch
  · rintro ⟨n, hn, hvalue⟩
    obtain ⟨token, htoken, rfl⟩ := List.mem_map.mp hn
    obtain ⟨hne, hdigits, -⟩ := htokens token htoken
    refine ⟨token, htoken, ?_⟩
    rw [parseInt10_digits hdigits hne]
    simpa [and_assoc, hseven] using hvalue

theorem matchField_value_iff {field : List Char} {lo hi value : Nat} (h : CronField field lo hi) :
    matchField field value = true ↔ FieldHolds field value := by
  rw [matchField_iff h, FieldHolds]
  simp

theorem matchField_day_iff {field : List Char} {lo hi day : Nat} (h : CronField field lo hi) :
    matchField field day true = true ↔ DayHolds field day := by
  rw [matchField_iff h, DayHolds]
  constructor
  · rintro (hstar | ⟨n, hn, rfl | ⟨-, rfl, rfl⟩⟩)
    · exact .inl hstar
    · exact .inr (.inl hn)
    · exact .inr (.inr ⟨rfl, hn⟩)
  · rintro (hstar | hday | ⟨rfl, hseven⟩)
    · exact .inl hstar
    · exact .inr ⟨day, hday, .inl rfl⟩
    · exact .inr ⟨7, hseven, .inr ⟨rfl, rfl, rfl⟩⟩

/-- An accepted expression matches when each of its five fields holds, and only then. -/
theorem cron_conditions {expr : String} (h : validateCronExpression expr = .ok ()) :
    ∃ min hr dom mon dow, cronFields expr = [min, hr, dom, mon, dow] ∧
      (∀ t : CivilTime, matchesCivil expr t = true ↔
        FieldHolds min t.minute ∧ FieldHolds hr t.hour ∧ FieldHolds dom t.date ∧
          FieldHolds mon t.month ∧ DayHolds dow t.day) ∧
      ∀ at_ : Instant, matchesCron expr at_ = true ↔
        FieldHolds min (utcMinutes at_) ∧ FieldHolds hr (utcHours at_) ∧
          FieldHolds dom (utcMonthDate at_).2 ∧ FieldHolds mon (utcMonthDate at_).1 ∧
            DayHolds dow (utcDay at_) := by
  obtain ⟨min, hr, dom, mon, dow, hfields, hmin, hhr, hdom, hmon, hdow⟩ :=
    validateCronExpression_ok h
  have hcivil : ∀ t : CivilTime, matchesCivil expr t = true ↔
      FieldHolds min t.minute ∧ FieldHolds hr t.hour ∧ FieldHolds dom t.date ∧
        FieldHolds mon t.month ∧ DayHolds dow t.day := fun t => by
    unfold matchesCivil
    rw [hfields]
    simp only [Bool.and_eq_true, matchField_value_iff hmin, matchField_value_iff hhr,
      matchField_value_iff hdom, matchField_value_iff hmon, matchField_day_iff hdow, and_assoc]
  exact ⟨min, hr, dom, mon, dow, hfields, hcivil, fun at_ => hcivil at_.civil⟩

/-- Half past nine on Sundays, and no other time of the week. -/
theorem sunday_window : ∃ min hr dom mon dow,
    cronFields "30 9 * * 7" = [min, hr, dom, mon, dow] ∧
      (∀ t : CivilTime, matchesCivil "30 9 * * 7" t = true ↔
        FieldHolds min t.minute ∧ FieldHolds hr t.hour ∧ FieldHolds dom t.date ∧
          FieldHolds mon t.month ∧ DayHolds dow t.day) ∧
      ∀ at_ : Instant, matchesCron "30 9 * * 7" at_ = true ↔
        FieldHolds min (utcMinutes at_) ∧ FieldHolds hr (utcHours at_) ∧
          FieldHolds dom (utcMonthDate at_).2 ∧ FieldHolds mon (utcMonthDate at_).1 ∧
            DayHolds dow (utcDay at_) :=
  cron_conditions (by rfl)

end BrainCore.Policy
