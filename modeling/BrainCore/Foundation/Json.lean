import Mathlib.Data.Rat.Init

/-!
# JSON values

The values a `jsonb` column, a rail receipt or a policy document can hold.  An
object lists its members in order; reading a member that is absent is `none`,
the `undefined` of the source.
-/

namespace BrainCore.Foundation

inductive Json where
  | null
  | bool (value : Bool)
  | num (value : Rat)
  | str (value : String)
  | arr (items : List Json)
  | obj (members : List (String × Json))

namespace Json

/-- `value[name]` of an object, `undefined` elsewhere. -/
def field? (value : Json) (name : String) : Option Json :=
  match value with
  | obj members => (members.find? fun member => member.1 = name).map Prod.snd
  | _ => none

def isNull : Json → Bool
  | null => true
  | _ => false

def isNumber : Json → Bool
  | num _ => true
  | _ => false

/-- `typeof value === "string" ? value : undefined`. -/
def str? : Json → Option String
  | str value => some value
  | _ => none

@[simp]
theorem isNull_iff {value : Json} : value.isNull = true ↔ value = null := by
  cases value <;> simp [isNull]

end Json

end BrainCore.Foundation
