import BrainCore.Contracts.SessionKeyHistories
import BrainCore.Foundation.JsonText
import BrainCore.Foundation.Text

/-!
# Session keys of single tasks

`services/execution/src/rails/session-keys.ts`: from an approved payment, the
session key that may make this payment.  The parameters are texts, which the
coder of the arguments of `grantSessionKey` reads.

The account meters a holder in windows that are counted from its first grant.
The period of a task key is its lifetime, so it spends its amount once as long
as no window starts inside this lifetime.
-/

namespace BrainCore.Execution

open BrainCore.Foundation BrainCore.Contracts

/-- `bigint | string`. -/
inductive RawUnits where
  | bigint (n : Int)
  | text (s : String)

structure DerivePerTaskKeyInput where
  holder : String
  recipientAddress : String
  capToken : String
  amountRawUnits : RawUnits
  policyVersion : String
  allowedSelectors : Option (List String) := none
  nowSeconds : Option Rat := none
  ttlSeconds : Option Rat := none

/-- The parameters in which the two ways of paying differ. -/
structure TaskScope where
  allowedTargets : List String
  allowedSelectors : List String
  capMode : CapMode
  capToken : String
  allowedRecipients : List String
deriving DecidableEq

structure PerTaskSessionKeyParams extends TaskScope where
  holder : String
  validAfter : String
  validUntil : String
  maxPerTx : String
  maxPerPeriod : String
  periodSeconds : String
  policyVersion : String
  capAmountOffset : String
deriving DecidableEq

def DEFAULT_TASK_KEY_TTL_SECONDS : Rat := 600

def ZERO_ADDRESS : String := "0x0000000000000000000000000000000000000000"

def ERC20_TRANSFER : String := "0xa9059cbb"

def ERC20_TRANSFER_FROM : String := "0x23b872dd"

/-- `String(n)` of a number, and `n.toString()` of a `bigint`. -/
def printed (n : Rat) : String := String.ofList (numberText n)

/-- The units, unless `BigInt` throws. -/
def RawUnits.value? : RawUnits → Option Int
  | .bigint n => some n
  | .text s => bigInt? s.toList

namespace DerivePerTaskKeyInput

variable (input : DerivePerTaskKeyInput)

/-- `capToken.toLowerCase() === ZERO_ADDRESS`. -/
def isNative : Bool := input.capToken.toList.map Char.toLower == ZERO_ADDRESS.toList

def scope : TaskScope :=
  if input.isNative then
    { allowedTargets := [input.recipientAddress]
      allowedSelectors := []
      capMode := .native
      capToken := ZERO_ADDRESS
      allowedRecipients := [] }
  else
    { allowedTargets := [input.capToken]
      allowedSelectors := input.allowedSelectors.getD [ERC20_TRANSFER, ERC20_TRANSFER_FROM]
      capMode := .erc20
      capToken := input.capToken
      allowedRecipients := [input.recipientAddress] }

/-- When the task is issued; `clock` is `Math.floor(Date.now() / 1000)`. -/
def now (clock : Rat) : Rat := input.nowSeconds.getD clock

def ttl : Rat := input.ttlSeconds.getD DEFAULT_TASK_KEY_TTL_SECONDS

end DerivePerTaskKeyInput

def derivePerTaskSessionKey (clock : Rat) (input : DerivePerTaskKeyInput) :
    Option PerTaskSessionKeyParams := do
  let now := input.now clock
  let ttl := input.ttl
  let units ← input.amountRawUnits.value?
  let amount := printed units
  some { input.scope with
    holder := input.holder
    validAfter := printed now
    validUntil := printed (now + ttl)
    maxPerTx := amount
    maxPerPeriod := amount
    periodSeconds := printed ttl
    policyVersion := input.policyVersion
    capAmountOffset := "0" }

/-! ## The argument of the grant -/

/-- The coder of contract arguments, from outside the repository.  A text that is not of its type
has no value, and a printed number is read as itself. -/
structure AbiCoder where
  uint256 : String → Option Uint256
  address : String → Option Address
  bytes4 : String → Option Selector
  bytes32 : String → Option Bytes32
  uint256_printed : ∀ (n : Rat) (word : Uint256), uint256 (printed n) = some word → (word.val : Rat) = n

/-- The struct that is granted; the pinned word is not among the derived parameters. -/
def PerTaskSessionKeyParams.encode (params : PerTaskSessionKeyParams) (coder : AbiCoder)
    (pinOffset : Uint256) (pinValue : Bytes32) : Option SessionKey := do
  let holder ← coder.address params.holder
  let validAfter ← coder.uint256 params.validAfter
  let validUntil ← coder.uint256 params.validUntil
  let allowedTargets ← params.allowedTargets.mapM coder.address
  let allowedSelectors ← params.allowedSelectors.mapM coder.bytes4
  let capToken ← coder.address params.capToken
  let allowedRecipients ← params.allowedRecipients.mapM coder.address
  let capAmountOffset ← coder.uint256 params.capAmountOffset
  let maxPerTx ← coder.uint256 params.maxPerTx
  let maxPerPeriod ← coder.uint256 params.maxPerPeriod
  let periodSeconds ← coder.uint256 params.periodSeconds
  let policyVersion ← coder.bytes32 params.policyVersion
  some { holder, validAfter, validUntil, allowedTargets, allowedSelectors
         capMode := params.capMode, capToken, allowedRecipients, capAmountOffset, pinOffset, pinValue
         maxPerTx, maxPerPeriod, periodSeconds, policyVersion }

/-! ## What the granted key says of its task -/

/-- How the recipient is bound: as the target of plain payments, or as the payee of a token. -/
inductive BindsRecipient (key : SessionKey) (recipient : Address) : Prop where
  | native (mode : key.capMode = .native) (targets : key.allowedTargets = [recipient])
  | erc20 (mode : key.capMode = .erc20) (recipients : key.allowedRecipients = [recipient])

/-- A key that was derived for a task. -/
structure TaskKey (coder : AbiCoder) (clock : Rat) (input : DerivePerTaskKeyInput)
    (key : SessionKey) : Prop where
  validAfter : (key.validAfter.val : Rat) = input.now clock
  validUntil : (key.validUntil.val : Rat) = input.now clock + input.ttl
  periodSeconds : (key.periodSeconds.val : Rat) = input.ttl
  amount : ∃ units, input.amountRawUnits.value? = some units ∧
    (key.maxPerTx.val : Int) = units ∧ (key.maxPerPeriod.val : Int) = units
  recipient : ∃ recipient, coder.address input.recipientAddress = some recipient ∧
    BindsRecipient key recipient

variable {coder : AbiCoder} {clock : Rat} {input : DerivePerTaskKeyInput}
  {params : PerTaskSessionKeyParams} {key : SessionKey} {pinOffset : Uint256} {pinValue : Bytes32}

theorem derivePerTaskSessionKey_eq_some
    (h : derivePerTaskSessionKey clock input = some params) :
    ∃ units, input.amountRawUnits.value? = some units ∧ params.toTaskScope = input.scope ∧
      params.validAfter = printed (input.now clock) ∧
      params.validUntil = printed (input.now clock + input.ttl) ∧
      params.maxPerTx = printed units ∧ params.maxPerPeriod = printed units ∧
      params.periodSeconds = printed input.ttl := by
  obtain ⟨units, hunits, hparams⟩ := Option.bind_eq_some_iff.mp h
  cases hparams
  exact ⟨units, hunits, rfl, rfl, rfl, rfl, rfl, rfl⟩

/-- What the coder has read where it has read all. -/
theorem PerTaskSessionKeyParams.encode_eq_some
    (h : params.encode coder pinOffset pinValue = some key) :
    coder.uint256 params.validAfter = some key.validAfter ∧
      coder.uint256 params.validUntil = some key.validUntil ∧
      params.allowedTargets.mapM coder.address = some key.allowedTargets ∧
      params.allowedRecipients.mapM coder.address = some key.allowedRecipients ∧
      coder.uint256 params.maxPerTx = some key.maxPerTx ∧
      coder.uint256 params.maxPerPeriod = some key.maxPerPeriod ∧
      coder.uint256 params.periodSeconds = some key.periodSeconds ∧ key.capMode = params.capMode := by
  obtain ⟨holder, -, h⟩ := Option.bind_eq_some_iff.mp h
  obtain ⟨validAfter, hafter, h⟩ := Option.bind_eq_some_iff.mp h
  obtain ⟨validUntil, huntil, h⟩ := Option.bind_eq_some_iff.mp h
  obtain ⟨targets, htargets, h⟩ := Option.bind_eq_some_iff.mp h
  obtain ⟨selectors, -, h⟩ := Option.bind_eq_some_iff.mp h
  obtain ⟨capToken, -, h⟩ := Option.bind_eq_some_iff.mp h
  obtain ⟨recipients, hrecipients, h⟩ := Option.bind_eq_some_iff.mp h
  obtain ⟨offset, -, h⟩ := Option.bind_eq_some_iff.mp h
  obtain ⟨maxPerTx, htx, h⟩ := Option.bind_eq_some_iff.mp h
  obtain ⟨maxPerPeriod, hperiod, h⟩ := Option.bind_eq_some_iff.mp h
  obtain ⟨periodSeconds, hseconds, h⟩ := Option.bind_eq_some_iff.mp h
  obtain ⟨policyVersion, -, h⟩ := Option.bind_eq_some_iff.mp h
  cases h
  exact ⟨hafter, huntil, htargets, hrecipients, htx, hperiod, hseconds, rfl⟩

theorem mapM_singleton {α β : Type} {f : α → Option β} {a : α} {values : List β}
    (h : [a].mapM f = some values) : ∃ b, f a = some b ∧ values = [b] := by
  rw [List.mapM_cons] at h
  obtain ⟨b, hb, h⟩ := Option.bind_eq_some_iff.mp h
  cases h
  exact ⟨b, hb, rfl⟩

theorem printed_units {units : Int} {word : Uint256}
    (h : coder.uint256 (printed units) = some word) : (word.val : Int) = units := by
  have hread := coder.uint256_printed _ _ h
  exact_mod_cast hread

theorem taskKey_of_derived (hderive : derivePerTaskSessionKey clock input = some params)
    (hencode : params.encode coder pinOffset pinValue = some key) :
    TaskKey coder clock input key := by
  obtain ⟨units, hunits, hscope, hafter, huntil, htx, hperiod, hseconds⟩ :=
    derivePerTaskSessionKey_eq_some hderive
  obtain ⟨rafter, runtil, rtargets, rrecipients, rtx, rperiod, rseconds, hmode⟩ :=
    PerTaskSessionKeyParams.encode_eq_some hencode
  rw [hafter] at rafter
  rw [huntil] at runtil
  rw [htx] at rtx
  rw [hperiod] at rperiod
  rw [hseconds] at rseconds
  rw [hscope] at rtargets rrecipients hmode
  refine ⟨coder.uint256_printed _ _ rafter, coder.uint256_printed _ _ runtil,
    coder.uint256_printed _ _ rseconds, ⟨units, hunits, printed_units rtx, printed_units rperiod⟩, ?_⟩
  unfold DerivePerTaskKeyInput.scope at rtargets rrecipients hmode
  split at hmode
  · rename_i hnative
    rw [if_pos hnative] at rtargets
    obtain ⟨recipient, hrecipient, htargets⟩ := mapM_singleton rtargets
    exact ⟨recipient, hrecipient, .native hmode htargets⟩
  · rename_i hnative
    rw [if_neg hnative] at rrecipients
    obtain ⟨recipient, hrecipient, hrecipients⟩ := mapM_singleton rrecipients
    exact ⟨recipient, hrecipient, .erc20 hmode hrecipients⟩

/-- The lifetime of a task key is one period of it. -/
theorem TaskKey.lifetime (h : TaskKey coder clock input key) :
    key.validUntil.val = key.validAfter.val + key.periodSeconds.val := by
  have hsum : (key.validUntil.val : Rat) = key.validAfter.val + key.periodSeconds.val := by
    rw [h.validUntil, h.validAfter, h.periodSeconds]
  exact_mod_cast hsum

/-! ## Windows -/

/-- No window of the holder starts inside the lifetime of a granted key. -/
def WithinOneWindow (anchor : Uint256) (key : SessionKey) (granted : Uint256) : Prop :=
  ∀ n : ℕ, anchor.val + n * key.periodSeconds.val ≤ max granted.val key.validAfter.val ∨
    key.validUntil.val ≤ anchor.val + n * key.periodSeconds.val

/-- A first grant at the time of issuance or later starts the only window. -/
theorem withinOneWindow_of_first {granted : Uint256} (h : TaskKey coder clock input key)
    (hissued : key.validAfter ≤ granted) : WithinOneWindow granted key granted := by
  intro n
  have hlifetime := h.lifetime
  have hissued : key.validAfter.val ≤ granted.val := hissued
  cases n with
  | zero =>
      left
      rw [Nat.zero_mul, Nat.add_zero]
      exact le_max_left _ _
  | succ n =>
      right
      have hperiod : key.periodSeconds.val ≤ (n + 1) * key.periodSeconds.val :=
        Nat.le_mul_of_pos_left _ n.succ_pos
      omega

/-- Two times in the lifetime of such a key are in the same window. -/
theorem WithinOneWindow.same {anchor granted earlier later first second : Uint256}
    (h : WithinOneWindow anchor key granted) (hgranted : granted ≤ earlier)
    (hstarted : key.validAfter ≤ earlier) (hle : earlier ≤ later) (hunexpired : later < key.validUntil)
    (hfirst : windowStart anchor key.periodSeconds earlier = some first)
    (hsecond : windowStart anchor key.periodSeconds later = some second) : first = second := by
  obtain ⟨-, hval⟩ := windowStart_eq_some_iff.mp hsecond
  have hmultiple : second.val =
      anchor.val + (later.val - anchor.val) / key.periodSeconds.val * key.periodSeconds.val := by
    have hdivided := Nat.div_add_mod (later.val - anchor.val) key.periodSeconds.val
    rw [Nat.mul_comm] at hdivided
    omega
  have hreached : second.val ≤ later.val := windowStart_le hsecond
  have hbefore : second.val ≤ earlier.val := by
    have hmax : max granted.val key.validAfter.val ≤ earlier.val := max_le hgranted hstarted
    have hexpires : later.val < key.validUntil.val := hunexpired
    rcases h ((later.val - anchor.val) / key.periodSeconds.val) with hstart | hend
    · rw [← hmultiple] at hstart
      exact hstart.trans hmax
    · rw [← hmultiple] at hend
      omega
  rw [windowStart_of_between hsecond hbefore hle] at hfirst
  exact (Option.some.inj hfirst).symm

/-! ## What is spent under a key -/

/-- The executions of its holder under a key from the time of a grant on. -/
def UnderKey (key : SessionKey) (granted : Uint256) (e : Execution) : Prop :=
  e.holder = key.holder ∧ e.key = key ∧ granted ≤ e.timestamp

instance (key : SessionKey) (granted : Uint256) : DecidablePred (UnderKey key granted) :=
  fun _ => inferInstanceAs (Decidable (_ ∧ _ ∧ _))

/-- The metered amount goes to this recipient, as ether or in a token. -/
inductive Pays (e : Execution) (recipient : Address) : Prop where
  | ether (target : e.target = recipient) (data : e.data = []) (amount : e.amount = e.value)
  | token (value : e.value = 0) (target : e.target = e.key.capToken)
      (transfers : SessionKey.Transfers e.data recipient e.amount)

/-- A granted task key moves at most the amount of the task, and only to its recipient. -/
structure TaskBounded (coder : AbiCoder) (input : DerivePerTaskKeyInput) (key : SessionKey)
    (granted : Uint256) (executions : List Execution) : Prop where
  amount : ∃ units, input.amountRawUnits.value? = some units ∧
    (totalAmount (UnderKey key granted) executions : Int) ≤ units
  recipient : ∃ recipient, coder.address input.recipientAddress = some recipient ∧
    ∀ e ∈ executions, UnderKey key granted e → Pays e recipient

theorem pays_of_inScope {recipient : Address} {e : Execution} (hbinds : BindsRecipient key recipient)
    (hkey : e.key = key) (hscope : e.InScope) : Pays e recipient := by
  subst hkey
  have hmeasures := hscope.measures
  unfold SessionKey.Measures at hmeasures
  cases hbinds with
  | native hmode htargets =>
      have htarget := hscope.target
      rw [htargets] at htarget
      rw [hmode] at hmeasures
      exact .ether (List.mem_singleton.mp htarget) hmeasures.1 hmeasures.2
  | erc20 hmode hrecipients =>
      rw [hmode] at hmeasures
      obtain ⟨hvalue, htarget, payee, hallowed, htransfers⟩ := hmeasures
      rw [hrecipients] at hallowed
      rw [List.mem_singleton.mp hallowed] at htransfers
      exact .token hvalue htarget htransfers

/-- The account of a holder since a grant of a task key. -/
structure MeteredSince (key : SessionKey) (anchor : Uint256) (history : AccountHistory) : Prop where
  metered : ∃ initial time, history.Metered initial time
  lifetimes : ∀ e ∈ history.executions, e.InLifetime
  anchored : history.account.windowAnchor key.holder = 0 ∨
    history.account.windowAnchor key.holder = anchor
  period : key.periodSeconds ≠ 0

namespace MeteredSince

variable {history : AccountHistory} {anchor granted : Uint256}

theorem window_eq {e : Execution} (h : MeteredSince key anchor history)
    (hmem : e ∈ history.executions) (hunder : UnderKey key granted e) :
    ∃ window, e.window = some window ∧
      windowStart anchor key.periodSeconds e.timestamp = some window := by
  obtain ⟨initial, time, hm⟩ := h.metered
  obtain ⟨hholder, hkey, -⟩ := hunder
  obtain ⟨-, hanchor, hstart, hsome⟩ := hm.windows e hmem
  rw [hkey] at hstart hsome
  rw [hholder] at hanchor hstart
  rw [h.anchored.resolve_left hanchor, if_neg h.period] at hstart
  obtain ⟨window, hwindow⟩ := Option.isSome_iff_exists.mp (hsome h.period)
  exact ⟨window, hwindow, hstart.symm.trans hwindow⟩

/-- All executions under the key are charged to one window. -/
theorem window_unique {first second : Execution} (h : MeteredSince key anchor history)
    (hwithin : WithinOneWindow anchor key granted) (hfirst : first ∈ history.executions)
    (hsecond : second ∈ history.executions) (hunder : UnderKey key granted first)
    (hunder' : UnderKey key granted second) : first.window = second.window := by
  obtain ⟨window, hwindow, hstart⟩ := h.window_eq hfirst hunder
  obtain ⟨window', hwindow', hstart'⟩ := h.window_eq hsecond hunder'
  obtain ⟨hstarted, hunexpired⟩ := h.lifetimes first hfirst
  obtain ⟨hstarted', hunexpired'⟩ := h.lifetimes second hsecond
  rw [hunder.2.1] at hstarted hunexpired
  rw [hunder'.2.1] at hstarted' hunexpired'
  rw [hwindow, hwindow']
  rcases le_total first.timestamp second.timestamp with hle | hle
  · rw [hwithin.same hunder.2.2 hstarted hle hunexpired' hstart hstart']
  · rw [hwithin.same hunder'.2.2 hstarted' hle hunexpired hstart' hstart]

/-- What is spent in one window is within the cap of the key. -/
theorem totalAmount_le (h : MeteredSince key anchor history)
    (hwithin : WithinOneWindow anchor key granted) :
    totalAmount (UnderKey key granted) history.executions ≤ key.maxPerPeriod.val := by
  cases hnewest : history.executions.find? (fun e => decide (UnderKey key granted e)) with
  | none =>
      rw [totalAmount_eq_zero fun e hmem hunder =>
        absurd hunder (by simpa using List.find?_eq_none.mp hnewest e hmem)]
      exact Nat.zero_le _
  | some e =>
      obtain ⟨hfound, later, earlier, hsplit, hlater⟩ := List.find?_eq_some_iff_append.mp hnewest
      have hunder : UnderKey key granted e := of_decide_eq_true hfound
      have hmem : ∀ other ∈ e :: earlier, other ∈ history.executions := fun other hother => by
        rw [hsplit]
        exact List.mem_append_right _ hother
      obtain ⟨window, hwindow, -⟩ := h.window_eq (hmem e List.mem_cons_self) hunder
      obtain ⟨initial, time, hm⟩ := h.metered
      have hcharged := hm.perPeriod later e earlier hsplit window hwindow
      rw [hunder.2.1] at hcharged
      have hnone : totalAmount (UnderKey key granted) later = 0 :=
        totalAmount_eq_zero fun other hmem hother => by simpa [hother] using hlater other hmem
      rw [hsplit, totalAmount_append, hnone, Nat.zero_add]
      refine le_trans (totalAmount_mono fun other hother hsame _ => ?_) hcharged
      refine ⟨hsame.1.trans hunder.1.symm, ?_⟩
      rw [h.window_unique hwithin (hmem other hother) (hmem e List.mem_cons_self) hsame hunder, hwindow]

end MeteredSince

/-! ## Runs after a grant -/

/-- A key of no amount moves nothing. -/
theorem totalAmount_of_maxPerTx {executions : List Execution} {granted : Uint256}
    (hscope : ∀ e ∈ executions, e.InScope) (hzero : key.maxPerTx.val = 0) :
    totalAmount (UnderKey key granted) executions = 0 := by
  refine totalAmount_eq_zero fun e hmem hunder => ?_
  have hmax : e.amount.val ≤ e.key.maxPerTx.val := (hscope e hmem).perTx
  rw [hunder.2.1, hzero] at hmax
  exact Fin.ext (Nat.le_zero.mp hmax)

/-- A task key that is granted moves at most its amount and only to its recipient, if no window of
its holder starts inside its lifetime. -/
theorem taskBounded_of_run {deployer context : CallContext} {self owner policyRegistry : Address}
    {balance : Uint256} {registered : Bytes32 → Bool} {start w granted final : AccountWorld}
    {labels later : List AccountLabel}
    (hderive : derivePerTaskSessionKey clock input = some params)
    (hencode : params.encode coder pinOffset pinValue = some key)
    (hdeploy : AccountWorld.deploy deployer self owner policyRegistry balance = .ok start)
    (hrun : accountMachine.run start labels = some w)
    (hgrant : w.Grants context key registered granted)
    (hwithin : input.amountRawUnits.value? = some 0 ∨ WithinOneWindow
      (w.current.account.anchorAt key.holder context.timestamp key.holder) key context.timestamp)
    (hlater : accountMachine.Meets (fun w label => ¬AccountWorld.GrantsTo key.holder w label)
      granted later)
    (hfinal : accountMachine.run granted later = some final) :
    TaskBounded coder input key context.timestamp final.current.executions := by
  have htask := taskKey_of_derived hderive hencode
  have hanchored := AccountWorld.anchored_of_meets
    (hgrant.anchored (AccountWorld.recorded_of_run hdeploy hrun)) hlater hfinal
  have hm := hanchored.recorded.inv.current
  obtain ⟨units, hunits, htx, hperiod⟩ := htask.amount
  obtain ⟨recipient, hrecipient, hbinds⟩ := htask.recipient
  refine ⟨⟨units, hunits, ?_⟩, recipient, hrecipient, fun e hmem hunder =>
    pays_of_inScope hbinds hunder.2.1 (hm.inScope e hmem)⟩
  rcases hwithin with hzero | hwithin
  · rw [hunits] at hzero
    cases hzero
    rw [totalAmount_of_maxPerTx hm.inScope (by exact_mod_cast htx)]
    exact le_refl _
  · have hsince : MeteredSince key
        (w.current.account.anchorAt key.holder context.timestamp key.holder) final.current := by
      refine ⟨⟨_, _, hm⟩, ?_, ?_, fun hnone => ?_⟩
      · exact hanchored.recorded.lasting.lifetimes _ List.mem_cons_self
      · exact hanchored.anchored _ List.mem_cons_self
      · have hlifetime := htask.lifetime
        have hstarts : key.validAfter.val < key.validUntil.val := hgrant.current.1
        rw [hnone] at hlifetime
        exact absurd hlifetime (Nat.ne_of_gt hstarts)
    rw [← hperiod]
    exact_mod_cast hsince.totalAmount_le hwithin

/-! ## A holder that had a key before -/

/-- `0x` and this many digits. -/
def hexNumber? (digits size : ℕ) (s : String) : Option (Fin size) :=
  if s.toList.take 2 = ['0', 'x'] ∧ s.toList.length = digits + 2 then
    (radixNat? 16 (s.toList.drop 2)).bind fun n => if h : n < size then some ⟨n, h⟩ else none
  else none

/-- A decimal text. -/
def decimalWord? (s : String) : Option Uint256 :=
  (decimalNat? s.toList).bind fun n => if h : n < 2 ^ 256 then some ⟨n, h⟩ else none

theorem decimalWord?_printed (n : Rat) (word : Uint256) (h : decimalWord? (printed n) = some word) :
    (word.val : Rat) = n := by
  obtain ⟨value, hvalue, hword⟩ := Option.bind_eq_some_iff.mp h
  rw [printed, String.toList_ofList] at hvalue
  unfold decimalNat? at hvalue
  split at hvalue
  · rename_i hdigits
    have hdigits : ∀ c ∈ numberText n, c.isDigit = true := List.all_eq_true.mp hdigits.2
    have hsign : ¬n.num < 0 := fun hneg =>
      absurd (hdigits '-' (by simp [numberText, hneg])) (by decide)
    have hwhole : n.den = 1 := by
      by_contra hden
      exact absurd (hdigits '/' (by simp [numberText, hden])) (by decide)
    have htext : numberText n = Nat.toDigits 10 n.num.natAbs := by simp [numberText, hsign, hwhole]
    rw [htext, natOf_toDigits] at hvalue
    cases hvalue
    split at hword
    · cases hword
      calc ((n.num.natAbs : ℕ) : Rat) = ((n.num.natAbs : Int) : Rat) := (Int.cast_natCast _).symm
        _ = n.num := by rw [Int.natAbs_of_nonneg (not_lt.mp hsign)]
        _ = n := Rat.coe_int_num_of_den_eq_one hwhole
    · cases hword
  · cases hvalue

def hexCoder : AbiCoder where
  uint256 := decimalWord?
  address := hexNumber? 40 (2 ^ 160)
  bytes4 := hexNumber? 8 (2 ^ 32)
  bytes32 := hexNumber? 64 (2 ^ 256)
  uint256_printed := decimalWord?_printed

/-- One hundred wei within ten minutes. -/
def task : DerivePerTaskKeyInput where
  holder := "0x0000000000000000000000000000000000000018"
  recipientAddress := "0x0000000000000000000000000000000000000005"
  capToken := ZERO_ADDRESS
  amountRawUnits := .bigint 100
  policyVersion := "0x0000000000000000000000000000000000000000000000000000000000000007"

def taskKey : SessionKey :=
  { holder := 24, validAfter := 5000, validUntil := 5600, allowedTargets := [5], capMode := .native
    maxPerTx := 100, maxPerPeriod := 100, periodSeconds := 600, policyVersion := 7 }

theorem taskKey_derived : ∃ params, derivePerTaskSessionKey 5000 task = some params ∧
    params.encode hexCoder 0 0 = some taskKey := by
  refine ⟨_, rfl, ?_⟩
  decide +kernel

def holderPaysLater : CallContext :=
  { AccountWorld.holderSpends with
    timestamp := 5400
    timestamp_ne_zero := Fin.ne_of_val_ne (Nat.succ_ne_zero 5399) }

/-- The holder pays when the key is granted and once more within its ten minutes. -/
def paysTwice : List AccountLabel :=
  [.execute AccountWorld.holderSpends 0 5 100 [], .targetReturns true,
   .execute holderPaysLater 1 5 100 [], .targetReturns true]

/-- Holders grant no keys. -/
theorem meets_ungranted {holder : Address} {w : AccountWorld} {labels : List AccountLabel}
    (h : ∀ label ∈ labels, ∀ context call, label ≠ .manage context call) :
    accountMachine.Meets (fun w label => ¬AccountWorld.GrantsTo holder w label) w labels := by
  refine Machine.Meets.mono accountMachine ?_ (accountMachine.meets_of_forall w h)
  rintro state label hcalls ⟨context, key, registered, granted, hlabel, -⟩
  exact hcalls _ _ hlabel

/-- A holder that never had a key pays once, and the second payment is rejected. -/
theorem taskBounded_paysOnce : ∃ granted final,
    AccountWorld.funded.Grants AccountWorld.ownerRegrants taskKey (fun _ => true) granted ∧
      accountMachine.run granted (paysTwice.take 3) = some final ∧
      final.current.account.balance = 400 ∧
      TaskBounded hexCoder task taskKey 5000 final.current.executions := by
  obtain ⟨params, hderive, hencode⟩ := taskKey_derived
  have hdeploy : AccountWorld.deploy AccountWorld.deployerCalls 1 21 3 500 =
    .ok AccountWorld.funded := rfl
  have hruns : ∃ granted final,
      AccountWorld.funded.Grants AccountWorld.ownerRegrants taskKey (fun _ => true) granted ∧
        accountMachine.run granted (paysTwice.take 3) = some final ∧
        final.current.account.balance = 400 := ⟨_, _, ⟨⟨_, rfl⟩, rfl⟩, rfl, rfl⟩
  obtain ⟨granted, final, hgrant, hfinal, hbalance⟩ := hruns
  have hwithin : WithinOneWindow 5000 taskKey 5000 :=
    withinOneWindow_of_first (taskKey_of_derived hderive hencode) (le_refl _)
  have hcalls : ∀ label ∈ paysTwice.take 3, ∀ context call, label ≠ .manage context call := by
    simp [paysTwice]
  exact ⟨granted, final, hgrant, hfinal, hbalance, taskBounded_of_run hderive hencode hdeploy
    (accountMachine.run_nil _) hgrant (.inr hwithin) (meets_ungranted hcalls) hfinal⟩

/-- After an earlier key of the holder, the amount is spent in two windows. -/
theorem paysTwice_exceeds : ∃ params w granted final,
    derivePerTaskSessionKey 5000 task = some params ∧
      params.encode hexCoder 0 0 = some taskKey ∧
      AccountWorld.deploy AccountWorld.deployerCalls 1 21 3 500 = .ok AccountWorld.funded ∧
      accountMachine.run AccountWorld.funded [.manage AccountWorld.ownerGrants
        (.grantSessionKey AccountWorld.dailyKey fun _ => true)] = some w ∧
      w.Grants AccountWorld.ownerRegrants taskKey (fun _ => true) granted ∧
      accountMachine.Meets (fun w label => ¬AccountWorld.GrantsTo taskKey.holder w label)
        granted paysTwice ∧
      accountMachine.run granted paysTwice = some final ∧
      ¬TaskBounded hexCoder task taskKey 5000 final.current.executions := by
  obtain ⟨params, hderive, hencode⟩ := taskKey_derived
  have hcalls : ∀ label ∈ paysTwice, ∀ context call, label ≠ .manage context call := by
    simp [paysTwice]
  refine ⟨params, _, _, _, hderive, hencode, rfl, rfl, ⟨⟨_, rfl⟩, rfl⟩, meets_ungranted hcalls, rfl,
    fun hbounded => ?_⟩
  obtain ⟨units, hunits, htotal⟩ := hbounded.amount
  cases hunits
  exact absurd htotal (by decide)

end BrainCore.Execution
