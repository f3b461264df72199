import Mathlib.Algebra.Order.Field.Rat
import Mathlib.Data.Rat.Defs
import BrainCore.Foundation.Json
import BrainCore.Foundation.Text
import BrainCore.Foundation.Result
import BrainCore.Foundation.Table
import BrainCore.Ledger.LedgerRows

/-!
# Counterparties of the ledger

`upsertCounterpartyRow` and `normalizeName` of
`services/ledger/src/service/writes.ts`: a counterparty is one row for each
owner, normal form of its name and type.  The tables of Unicode behind
`normalize("NFKD")` and `toLowerCase` are parameters.
-/

namespace BrainCore.Ledger

open BrainCore.Foundation

/-! ## Normal forms -/

/-- The tables of Unicode. -/
structure Unicode where
  /-- `normalize("NFKD")`. -/
  nfkd : List Char → List Char
  toLowerCase : List Char → List Char

/-- `[a-z0-9]`. -/
def isAlnum (c : Char) : Bool := c.isDigit || ('a' ≤ c && c ≤ 'z')

/-- `[\u0300-\u036f]`. -/
def isCombiningMark (c : Char) : Bool := 0x300 ≤ c.toNat && c.toNat ≤ 0x36f

/-- `replace(/[^a-z0-9]+/g, sep)`, behind a character that was replaced or not. -/
def replaceRuns (sep : Char) : Bool → List Char → List Char
  | _, [] => []
  | replaced, c :: rest =>
      if isAlnum c then c :: replaceRuns sep false rest
      else if replaced then replaceRuns sep true rest
      else sep :: replaceRuns sep true rest

/-- `replace(/^_+|_+$/g, "")`. -/
def stripUnderscores (s : List Char) : List Char :=
  ((s.dropWhile (· == '_')).reverse.dropWhile (· == '_')).reverse

/-- `[a-z0-9-]*\d[a-z0-9-]*\b`. -/
def documentNumber : Regex :=
  .seqs [.star fun c => isAlnum c || c == '-', .one Char.isDigit,
    .star fun c => isAlnum c || c == '-', .boundary]

/-- `\b(?:invoice|reference)(?:(?:\s+no\.?)?\s*[-#:]\s*|\s+)` and a document number. -/
def longReference : Regex :=
  .seqs [.boundary, .alts (.text "invoice") [.text "reference"],
    .alts
      (.seqs [.opt (.seqs [.plus isJsSpace, .text "no", .opt (.text ".")]), .star isJsSpace,
        .one (Regex.oneOf "-#:"), .star isJsSpace])
      [.plus isJsSpace],
    documentNumber]

/-- `\b(?:inv|bill|ref|po|p\.?o\.?)[-#:\s]+` and a document number. -/
def shortReference : Regex :=
  .seqs [.boundary,
    .alts (.text "inv") [.text "bill", .text "ref", .text "po",
      .seqs [.text "p", .opt (.text "."), .text "o", .opt (.text ".")]],
    .plus fun c => Regex.oneOf "-#:" c || isJsSpace c, documentNumber]

/-- A name up to the replacement of what is no letter or digit: in lower case, without marks,
leading punctuation and references to documents. -/
def withoutReferences (unicode : Unicode) (name : String) : List Char :=
  Regex.replaceAll (.alt longReference shortReference) [' ']
    ((unicode.toLowerCase ((unicode.nfkd name.toList).filter fun c => ¬isCombiningMark c)).dropWhile
      fun c => ¬isAlnum c)

def normalizeName (unicode : Unicode) (name : String) : List Char :=
  stripUnderscores (replaceRuns '_' false (withoutReferences unicode name))

/-! ## Rows -/

inductive CounterpartyType where
  | merchant
  | vendor
  | customer
  | employer
  | employee
  | bank
  | wallet
  | exchange
  | taxAuthority
  | agent
  | other
deriving DecidableEq

inductive CounterpartyRisk where
  | low
  | medium
  | high
  | sanctioned
deriving DecidableEq

inductive VerifiedStatus where
  | unverified
  | selfAttested
  | documentVerified
  | sanctionsCleared
deriving DecidableEq

structure CounterpartyRow where
  id : String
  ownerId : String
  name : String
  normalizedName : Option (List Char)
  type : CounterpartyType
  riskLevel : Option CounterpartyRisk := none
  verifiedStatus : Option VerifiedStatus := none
  aliases : List String := []
  sourceIds : List String := []
  evidenceIds : List String := []
  provenance : Provenance
  confidence : Rat
  agentId : Option String := none
  onchainAddress : Option String := none
  metadata : List (String × Json) := []
  canonicalCounterpartyId : Option String := none

abbrev Counterparties := Table CounterpartyRow.id

structure UpsertCounterpartyArgs where
  name : String
  normalizedName : Option (List Char) := none
  type : CounterpartyType
  agentId : Option String := none
  onchainAddress : Option String := none
  riskLevel : Option CounterpartyRisk := none
  verifiedStatus : Option VerifiedStatus := none
  aliases : List String := []
  metadata : List (String × Json) := []
  sourceIds : List String := []
  evidenceIds : List String := []
  provenance : Provenance
  confidence : Rat
  mergeTrustState : Bool := true

def AGENT_CONTRIBUTED_CONFIDENCE_CEILING : Rat := 1 / 2

def cappedConfidence (provenance : Provenance) (raw : Rat) : Except String Rat :=
  if raw < 0 ∨ 1 < raw then .error "confidence must be in [0, 1]"
  else if provenance = .agentContributed ∨ provenance = .customerAsserted then
    .ok (min raw AGENT_CONTRIBUTED_CONFIDENCE_CEILING)
  else .ok raw

/-- `SELECT DISTINCT x FROM unnest(a || b) AS x`. -/
def mergeArrays (a b : List String) : List String := (a ++ b).dedup

/-- `a || b` of two objects. -/
def mergeObjects (a b : List (String × Json)) : List (String × Json) :=
  a.filter (fun entry => entry.1 ∉ b.map Prod.fst) ++ b

/-- The normalized name that is written for a name. -/
def counterpartyKey (unicode : Unicode) (args : UpsertCounterpartyArgs) : List Char :=
  (args.normalizedName.getD (normalizeName unicode args.name)).take 200

/-- The row of the insert. -/
def newCounterparty (unicode : Unicode) (tenantId id : String) (args : UpsertCounterpartyArgs)
    (confidence : Rat) : CounterpartyRow :=
  { id
    ownerId := tenantId
    name := args.name
    normalizedName := some (counterpartyKey unicode args)
    type := args.type
    riskLevel := args.riskLevel
    verifiedStatus := args.verifiedStatus
    aliases := args.aliases
    sourceIds := args.sourceIds
    evidenceIds := args.evidenceIds
    provenance := args.provenance
    confidence
    agentId := args.agentId
    onchainAddress := args.onchainAddress
    metadata := args.metadata }

/-- `DO UPDATE SET …`. -/
def mergeCounterparty (args : UpsertCounterpartyArgs) (row : CounterpartyRow) : CounterpartyRow :=
  { row with
    aliases := mergeArrays row.aliases args.aliases
    sourceIds := mergeArrays row.sourceIds args.sourceIds
    evidenceIds := mergeArrays row.evidenceIds args.evidenceIds
    riskLevel := if args.mergeTrustState then args.riskLevel.or row.riskLevel else row.riskLevel
    verifiedStatus :=
      if args.mergeTrustState then args.verifiedStatus.or row.verifiedStatus else row.verifiedStatus
    metadata := mergeObjects row.metadata args.metadata }

/-- The row of the partial unique index that an insert conflicts with. -/
def conflictingCounterparty (db : Counterparties) (row : CounterpartyRow) :
    Option CounterpartyRow :=
  db.rows.find? fun other => other.ownerId = row.ownerId ∧
    other.normalizedName = row.normalizedName ∧ other.type = row.type ∧
      other.normalizedName ≠ none ∧ other.canonicalCounterpartyId = none

structure UpsertedCounterparty where
  row : CounterpartyRow
  created : Bool
  db : Counterparties

def upsertCounterpartyRow (unicode : Unicode) (tenantId id : String) (args : UpsertCounterpartyArgs)
    (db : Counterparties) : Except String UpsertedCounterparty := do
  let confidence ← cappedConfidence args.provenance args.confidence
  let row := newCounterparty unicode tenantId id args confidence
  match conflictingCounterparty db row with
  | some existing =>
      let merged := mergeCounterparty args existing
      pure ⟨merged, false, db.put merged⟩
  | none =>
      match db.insert? row with
      | some next => pure ⟨row, true, next⟩
      | none => .error "duplicate key value violates unique constraint"

/-!
## The counterparty-duplicate matcher

`services/ledger/src/reconciliation/counterparty-duplicate.ts` with the scores
of `scoring.ts`: which rows are compared with a row, and what a pair scores.
-/

/-! ## Scores of names -/

/-- `normalize` of `scoring.ts`. -/
def scoringForm (unicode : Unicode) (name : String) : List Char :=
  trim (replaceRuns ' ' false (unicode.toLowerCase (unicode.nfkd name.toList)))

/-- The words of more than one character. -/
def longWords (s : List Char) : List (List Char) :=
  ((splitWhite [] s).filter fun word => 1 < word.length).dedup

def tokenOverlap (a b : List Char) : Rat :=
  let ta := longWords a
  let tb := longWords b
  if ta = [] ∨ tb = [] then 0
  else ((ta.filter (· ∈ tb)).length : Rat) / min ta.length tb.length

def nameScore (unicode : Unicode) (a b : String) : Rat :=
  if a = "" ∨ b = "" then 0
  else
    let na := scoringForm unicode a
    let nb := scoringForm unicode b
    if na = nb then 1
    else if includes na nb ∨ includes nb na then 7 / 10
    else if 1 / 2 ≤ tokenOverlap na nb then 4 / 10
    else 0

/-! ## Scores of pairs -/

def CONFIDENT_THRESHOLD : Rat := 8 / 10

def CANDIDATE_THRESHOLD : Rat := 55 / 100

def EXACT_NAME_SCORE : Rat := 85 / 100

def EMAIL_BONUS : Rat := 1 / 10

/-- The first address in a namespace of the metadata. -/
def emailOf (unicode : Unicode) (row : CounterpartyRow) : Option (List Char) :=
  row.metadata.findSome? fun entry =>
    match entry.2 with
    | .obj namespaced =>
        match namespaced.lookup "email" with
        | some (.str email) =>
            if '@' ∈ email.toList then some (unicode.toLowerCase email.toList) else none
        | _ => none
    | _ => none

/-- The score of the names and, when both rows have one email, the bonus. -/
def pairScore (unicode : Unicode) (a b : CounterpartyRow) : Rat :=
  let exact :=
    if a.normalizedName ≠ none ∧ a.normalizedName = b.normalizedName then EXACT_NAME_SCORE
    else nameScore unicode a.name b.name * (8 / 10)
  let emailA := emailOf unicode a
  let bonus := if emailA ≠ none ∧ emailA = emailOf unicode b then EMAIL_BONUS else 0
  min (exact + bonus) (95 / 100)

inductive PairStatus where
  | matched
  | duplicatePossible
deriving DecidableEq

/-- What the loop of `run` makes of a pair: nothing, or a match with its status. -/
def pairStatus (unicode : Unicode) (row peer : CounterpartyRow) : Option PairStatus :=
  let score := pairScore unicode row peer
  if score < CANDIDATE_THRESHOLD then none
  else some (if CONFIDENT_THRESHOLD ≤ score then .matched else .duplicatePossible)

/-! ## Which rows are compared -/

/-- `LIKE`, for a pattern without a backslash. -/
def like : List Char → List Char → Bool
  | [], s => s.isEmpty
  | '%' :: pattern, s => s.tails.any (like pattern)
  | '_' :: pattern, s => !s.isEmpty && like pattern s.tail
  | c :: pattern, s => s.head? == some c && like pattern s.tail

def blockingPrefix (normalizedName : List Char) : List Char :=
  let token := normalizedName.takeWhile (· ≠ '_')
  if 3 ≤ token.length then token else normalizedName.take 3

/-- The condition of `loadUnlinkedPeers` on the normalized names of a row and a peer. -/
def loadsPeer : Option (List Char) → Option (List Char) → Bool
  | some row, some peer => peer = row || like (blockingPrefix row ++ ['%']) peer
  | _, _ => false

/-- The matcher scores a row and a peer it has loaded, and finds them matched. -/
def ScoresMatched (unicode : Unicode) (row peer : CounterpartyRow) : Prop :=
  row.id ≠ peer.id ∧ loadsPeer row.normalizedName peer.normalizedName = true ∧
    pairStatus unicode row peer = some .matched

end BrainCore.Ledger
