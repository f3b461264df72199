import BrainCore.Contracts.SmartAccount

/-!
# What an accepted execution stays within

The scope of a session key as the header of the contract describes it, and that
an execution which passes the checks is in the scope of the key in force.
-/

namespace BrainCore.Contracts

open BrainCore.Foundation

/-! ## Windows -/

theorem windowStart_eq_some_iff {anchor period timestamp window : Uint256} :
    windowStart anchor period timestamp = some window ↔ anchor.val ≤ timestamp.val ∧
      window.val = anchor.val +
        ((timestamp.val - anchor.val) - (timestamp.val - anchor.val) % period.val) := by
  unfold windowStart
  rw [Option.bind_eq_some_iff]
  constructor
  · rintro ⟨elapsed, helapsed, hwindow⟩
    have htime := Uint256.sub?_eq_some_iff.mp helapsed
    have hval := Uint256.add?_eq_some_iff.mp hwindow
    rw [show timestamp.val - anchor.val = elapsed.val by omega]
    exact ⟨by omega, hval⟩
  · rintro ⟨hle, hval⟩
    have hlt : timestamp.val - anchor.val < 2 ^ 256 := by have := timestamp.isLt; omega
    refine ⟨⟨timestamp.val - anchor.val, hlt⟩, Uint256.sub?_eq_some_iff.mpr ?_, ?_⟩
    · exact (Nat.add_sub_cancel' hle).symm
    · exact Uint256.add?_eq_some_iff.mpr hval

theorem windowStart_le {anchor period timestamp window : Uint256}
    (h : windowStart anchor period timestamp = some window) : window.val ≤ timestamp.val := by
  obtain ⟨hle, hval⟩ := windowStart_eq_some_iff.mp h
  have := Nat.sub_le (timestamp.val - anchor.val) ((timestamp.val - anchor.val) % period.val)
  omega

/-- A time between the start of a window and a time in it is in the same window. -/
theorem windowStart_of_between {anchor period earlier timestamp window : Uint256}
    (h : windowStart anchor period timestamp = some window)
    (hstart : window.val ≤ earlier.val) (hle : earlier.val ≤ timestamp.val) :
    windowStart anchor period earlier = some window := by
  obtain ⟨hanchor, hval⟩ := windowStart_eq_some_iff.mp h
  have hmod := Nat.mod_le (timestamp.val - anchor.val) period.val
  apply windowStart_eq_some_iff.mpr
  refine ⟨by omega, hval.trans (congrArg (anchor.val + ·) ?_)⟩
  generalize hn : timestamp.val - anchor.val = n at hval hmod ⊢
  generalize hm : earlier.val - anchor.val = m
  have hmn : m ≤ n := by omega
  have hnm : n - n % period.val ≤ m := by omega
  have hdiv : ∀ k : ℕ, k - k % period.val = period.val * (k / period.val) := by
    intro k
    have := Nat.div_add_mod k period.val
    omega
  rw [hdiv] at hnm ⊢
  rw [hdiv]
  have hquot : n / period.val = m / period.val := by
    apply Nat.le_antisymm _ (Nat.div_le_div_right hmn)
    rcases Nat.eq_zero_or_pos period.val with hzero | hpos
    · rw [hzero, Nat.div_zero, Nat.div_zero]
    · exact (Nat.le_div_iff_mul_le hpos).mpr (by rw [Nat.mul_comm]; exact hnm)
  rw [hquot]

/-! ## The keys that were granted -/

/-- The selectors that move tokens or give an allowance. -/
def tokenSelectors : List Selector :=
  [SELECTOR_APPROVE, SELECTOR_INCREASE_ALLOWANCE, SELECTOR_TRANSFER, SELECTOR_TRANSFER_FROM]

namespace SessionKey

/-- What the grant makes sure of for each way of measuring. -/
def Meterable (key : SessionKey) : Prop :=
  match key.capMode with
  | .native => True
  | .erc20 => key.allowedSelectors ≠ [] ∧ ∀ selector ∈ key.allowedSelectors,
      selector = SELECTOR_TRANSFER ∨ selector = SELECTOR_TRANSFER_FROM
  | .call => ∃ selector, key.allowedSelectors = [selector] ∧ selector ∉ tokenSelectors

theorem validateErc20Selectors_ok {selectors : List Selector}
    (h : validateErc20Selectors selectors = .ok ()) :
    ∀ selector ∈ selectors, selector = SELECTOR_TRANSFER ∨ selector = SELECTOR_TRANSFER_FROM := by
  induction selectors with
  | nil => exact fun _ hmem => (nomatch hmem)
  | cons first rest ih =>
      unfold validateErc20Selectors at h
      split at h
      · cases h
      · split at h
        · cases h
        · rename_i htransfer
          intro selector hmem
          rcases List.mem_cons.mp hmem with rfl | hrest
          · by_contra hneither
            exact htransfer (not_or.mp hneither)
          · exact ih h selector hrest

theorem validateErc20_ok {key : SessionKey} (h : key.validateErc20 = .ok ()) :
    key.allowedSelectors ≠ [] ∧ ∀ selector ∈ key.allowedSelectors,
      selector = SELECTOR_TRANSFER ∨ selector = SELECTOR_TRANSFER_FROM := by
  unfold validateErc20 at h
  split at h
  · cases h
  split at h
  · cases h
  split at h
  · cases h
  rename_i hselectors
  split at h
  · cases h
  split at h
  · cases h
  split at h
  · cases h
  obtain ⟨_, hvalid, -⟩ := bind_ok.mp h
  exact ⟨fun hnil => hselectors (congrArg List.length hnil), validateErc20Selectors_ok hvalid⟩

theorem validateCall_ok {key : SessionKey} (h : key.validateCall = .ok ()) :
    ∃ selector, key.allowedSelectors = [selector] ∧ selector ∉ tokenSelectors := by
  unfold validateCall at h
  split at h
  · cases h
  · rename_i selector hselectors
    split at h
    · cases h
    split at h
    · cases h
    split at h
    · cases h
    · rename_i htoken
      exact ⟨selector, hselectors, htoken⟩
  · cases h

theorem validate_ok {key : SessionKey} {timestamp : Uint256} {registered : Bytes32 → Bool}
    (h : key.validate timestamp registered = .ok ()) : key.Meterable := by
  unfold validate at h
  iterate 7
    split at h
    · cases h
  unfold Meterable
  cases hmode : key.capMode with
  | native => trivial
  | erc20 =>
      rw [hmode] at h
      exact validateErc20_ok h
  | call =>
      rw [hmode] at h
      exact validateCall_ok h

/-! ## What a key lets through -/

/-- The word of the calldata at an offset is there, and has this value. -/
def HasWord (data : Calldata) (offset : Uint256) (word : Bytes32) : Prop :=
  offset.val + 32 ≤ data.length ∧ wordAt data offset.val = word

/-- The calldata of one of the two token transfers, with its recipient and its amount. -/
def Transfers (data : Calldata) (recipient : Address) (amount : Uint256) : Prop :=
  selectorOf data = SELECTOR_TRANSFER ∧ data.length = 68 ∧
      recipient = addressOf (wordAt data 4) ∧ amount = wordAt data 36 ∨
    selectorOf data = SELECTOR_TRANSFER_FROM ∧ data.length = 100 ∧
      recipient = addressOf (wordAt data 36) ∧ amount = wordAt data 68

/-- The value rules, and where the capped amount is in the call. -/
def Measures (key : SessionKey) (target : Address) (value : Uint256) (data : Calldata)
    (amount : Uint256) : Prop :=
  match key.capMode with
  | .native => data = [] ∧ amount = value
  | .erc20 => value = 0 ∧ target = key.capToken ∧
      ∃ recipient ∈ key.allowedRecipients, Transfers data recipient amount
  | .call => value = 0 ∧ selectorOf data ∉ tokenSelectors ∧
      (key.pinOffset ≠ 0 → HasWord data key.pinOffset key.pinValue) ∧
      HasWord data key.capAmountOffset amount

theorem wordWithin_ok {data : Calldata} {offset : Uint256} {word : Bytes32}
    (h : wordWithin data offset = .ok word) : HasWord data offset word := by
  unfold wordWithin at h
  obtain ⟨required, hrequired, hword⟩ := bind_ok.mp h
  have hval := Uint256.add?_eq_some_iff.mp (checked_ok.mp hrequired)
  split at hword
  · cases hword
  · rename_i hlength
    cases hword
    refine ⟨?_, rfl⟩
    rw [not_lt, hval] at hlength
    exact hlength

theorem requirePin_ok {key : SessionKey} {data : Calldata} (h : key.requirePin data = .ok ())
    (hpin : key.pinOffset ≠ 0) : HasWord data key.pinOffset key.pinValue := by
  unfold requirePin at h
  rw [if_neg hpin] at h
  obtain ⟨actual, hactual, hsame⟩ := bind_ok.mp h
  split at hsame
  · cases hsame
  · rename_i hvalue
    rw [not_not.mp hvalue] at hactual
    exact wordWithin_ok hactual

theorem decodeTransfer_ok {data : Calldata} {recipient : Address} {amount : Uint256}
    (hselector : selectorOf data = SELECTOR_TRANSFER ∨ selectorOf data = SELECTOR_TRANSFER_FROM)
    (h : decodeTransfer data = .ok (recipient, amount)) : Transfers data recipient amount := by
  unfold decodeTransfer at h
  split at h
  · rename_i htransfer
    split at h
    · cases h
    · rename_i hlength
      cases h
      exact .inl ⟨htransfer, not_not.mp hlength, rfl, rfl⟩
  · rename_i hother
    split at h
    · cases h
    · rename_i hlength
      cases h
      exact .inr ⟨hselector.resolve_left hother, not_not.mp hlength, rfl, rfl⟩

theorem capAmount_ok {key : SessionKey} {target : Address} {value amount : Uint256}
    {data : Calldata} (hkey : key.Meterable)
    (hselector : key.allowedSelectors ≠ [] → selectorOf data ∈ key.allowedSelectors)
    (h : key.capAmount target value data = .ok amount) :
    key.Measures target value data amount := by
  unfold Meterable at hkey
  unfold capAmount at h
  unfold Measures
  cases hmode : key.capMode with
  | native =>
      rw [hmode] at h
      dsimp only at h ⊢
      split at h
      · cases h
      · rename_i hempty
        cases h
        exact ⟨List.eq_nil_of_length_eq_zero (not_not.mp hempty), rfl⟩
  | erc20 =>
      rw [hmode] at h hkey
      obtain ⟨hsome, hmoves⟩ := hkey
      dsimp only at h ⊢
      split at h
      · cases h
      rename_i hvalue
      split at h
      · cases h
      rename_i htarget
      obtain ⟨⟨recipient, moved⟩, hdecode, hrecipient⟩ := bind_ok.mp h
      dsimp only at hrecipient
      split at hrecipient
      · cases hrecipient
      · rename_i hallowed
        cases hrecipient
        refine ⟨not_not.mp hvalue, not_not.mp htarget, recipient, ?_,
          decodeTransfer_ok (hmoves _ (hselector hsome)) hdecode⟩
        simpa using hallowed
  | call =>
      rw [hmode] at h hkey
      obtain ⟨selector, hone, htoken⟩ := hkey
      dsimp only at h ⊢
      split at h
      · cases h
      rename_i hvalue
      obtain ⟨_, hpin, hword⟩ := bind_ok.mp h
      have hsame : selectorOf data ∈ [selector] := by
        rw [← hone]
        exact hselector (by rw [hone]; exact List.cons_ne_nil _ _)
      rw [List.mem_singleton.mp hsame]
      exact ⟨not_not.mp hvalue, htoken, requirePin_ok hpin, wordWithin_ok hword⟩

/-- No call of a key moves ether that its caps do not measure. -/
theorem Measures.value {key : SessionKey} {target : Address} {value amount : Uint256}
    {data : Calldata} (h : key.Measures target value data amount) :
    value = if key.capMode = .native then amount else 0 := by
  unfold Measures at h
  cases hmode : key.capMode with
  | native =>
      rw [hmode] at h
      exact h.2.symm
  | erc20 =>
      rw [hmode] at h
      exact h.1
  | call =>
      rw [hmode] at h
      exact h.1

end SessionKey

/-- An execution is in the scope of its key. -/
structure Execution.InScope (e : Execution) : Prop where
  target : e.target ∈ e.key.allowedTargets
  selector : e.key.allowedSelectors ≠ [] → selectorOf e.data ∈ e.key.allowedSelectors
  measures : e.key.Measures e.target e.value e.data e.amount
  perTx : e.amount ≤ e.key.maxPerTx

end BrainCore.Contracts
