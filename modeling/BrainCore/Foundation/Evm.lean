import Mathlib.Algebra.Order.Ring.Nat
import Mathlib.Data.Fin.Basic
import Mathlib.Order.Fin.Basic

/-!
# Words and callers of the virtual machine

Unsigned words with checked arithmetic, and what a contract sees of the
transaction that calls it.  A sender is an account, never the zero address, and
a transaction is in a block after the first one, so its time is not zero.
-/

namespace BrainCore.Foundation

instance neZeroTwoPow32 : NeZero (2 ^ 32) := ⟨by decide⟩

instance neZeroTwoPow64 : NeZero (2 ^ 64) := ⟨by decide⟩

instance neZeroTwoPow160 : NeZero (2 ^ 160) := ⟨by decide⟩

instance neZeroTwoPow256 : NeZero (2 ^ 256) := ⟨by decide⟩

abbrev Uint256 := Fin (2 ^ 256)

abbrev Bytes32 := Fin (2 ^ 256)

abbrev Address := Fin (2 ^ 160)

namespace Uint256

/-- The sum, unless it overflows. -/
def add? (a b : Uint256) : Option Uint256 :=
  if h : a.val + b.val < 2 ^ 256 then some ⟨a.val + b.val, h⟩ else none

/-- The difference, unless it is negative. -/
def sub? (a b : Uint256) : Option Uint256 :=
  if b.val ≤ a.val then some ⟨a.val - b.val, Nat.lt_of_le_of_lt (Nat.sub_le _ _) a.isLt⟩ else none

theorem add?_eq_some_iff {a b c : Uint256} : add? a b = some c ↔ c.val = a.val + b.val := by
  unfold add?
  constructor
  · intro h
    split at h
    · cases h
      rfl
    · cases h
  · intro h
    have hlt : a.val + b.val < 2 ^ 256 := h ▸ c.isLt
    rw [dif_pos hlt]
    exact congrArg some (Fin.ext h.symm)

theorem sub?_eq_some_iff {a b c : Uint256} : sub? a b = some c ↔ a.val = b.val + c.val := by
  unfold sub?
  constructor
  · intro h
    split at h
    · rename_i hle
      cases h
      exact (Nat.add_sub_cancel' hle).symm
    · cases h
  · intro h
    rw [if_pos (by omega)]
    exact congrArg some (Fin.ext (by dsimp only; omega))

end Uint256

/-- What a call sees of its transaction and block. -/
structure CallContext where
  sender : Address
  timestamp : Uint256
  chainId : Uint256
  sender_ne_zero : sender ≠ 0
  timestamp_ne_zero : timestamp ≠ 0

/-- The value of a computation that can overflow, or the error of the overflow. -/
def checked {ε α : Type} (overflow : ε) : Option α → Except ε α
  | some value => .ok value
  | none => .error overflow

theorem checked_ok {ε α : Type} {overflow : ε} {result : Option α} {value : α} :
    checked overflow result = .ok value ↔ result = some value := by
  cases result with
  | none => exact ⟨fun h => (nomatch h), fun h => (nomatch h)⟩
  | some other => exact ⟨fun h => congrArg some (Except.ok.inj h), fun h => congrArg Except.ok (Option.some.inj h)⟩

end BrainCore.Foundation
