import BrainCore.Foundation.BoundedLoop
import BrainCore.Shared.Net.Ssrf

/-!
# Fetching a public HTTPS resource

`shared/src/net/safe-fetch.ts`: the guard is asked at every hop, the socket is
pinned to a public address, redirects are followed by hand, and the header named
`authorization` is dropped on a redirect to another origin than the first one.
-/

namespace BrainCore.Shared.Net

open Foundation.BoundedLoop

structure FetchPublicOptions where
  headers : List (String × String) := []
  maxBytes : Nat
  maxRedirects : Nat := 4

structure FetchedResource where
  body : List UInt8
  contentType : Option String
deriving DecidableEq

inductive FetchError where
  | brain (code message : String) (status : Option Nat)
  /-- The `TypeError` of `new URL`. -/
  | invalidUrl
deriving DecidableEq

inductive HopOutcome where
  | resource (fetched : FetchedResource)
  | redirectTo (url : String)
deriving DecidableEq

def fetchFailed : FetchError := .brain "dependency_unavailable" "fetch failed" none

/-- What a request over the given addresses is answered. -/
def exchange (platform : Platform) (addresses : List Address) (origin : String)
    (headers : List (String × String)) (s : NetState) : Reply × NetState :=
  let tried := addresses.take (platform.tried s.requests)
  (if tried.isEmpty then .failed else platform.reply s.requests, s.requested tried origin headers)

/-- A host that is an address needs no lookup. -/
def pinnedAddress (platform : Platform) (url : Url) (s : NetState) :
    Except LookupError Address × NetState :=
  match platform.literal (connectHost url.hostname) with
  | some address => (.ok address, s)
  | none => publicOnlyLookup platform (connectHost url.hostname) s

def redirectLocation (response : Response) : Option String :=
  if 300 ≤ response.status ∧ response.status < 400 then response.location else none

def settleHop (platform : Platform) (url : Url) (maxBytes : Nat) : Reply → Except FetchError HopOutcome
  | .failed => .error fetchFailed
  | .timedOut => .error (.brain "dependency_unavailable" "fetch timed out" none)
  | .response response =>
      match redirectLocation response with
      | some location =>
          match platform.resolve location url with
          | none => .error .invalidUrl
          | some target => .ok (.redirectTo target.href)
      | none =>
          if response.status < 200 ∨ 300 ≤ response.status then
            .error (.brain "dependency_unavailable" ("fetch failed: HTTP " ++ toString response.status)
              (some response.status))
          else if maxBytes < response.body.length then
            .error (.brain "request_too_large" "fetched artifact exceeds the size cap" none)
          else .ok (.resource ⟨response.body, response.contentType⟩)

def getHop (platform : Platform) (url : Url) (headers : List (String × String)) (maxBytes : Nat)
    (s : NetState) : Except FetchError HopOutcome × NetState :=
  match pinnedAddress platform url s with
  | (.error .failed, s) => (.error fetchFailed, s)
  | (.error .ssrfBlocked, s) =>
      (.error (.brain "request_body_invalid" "url resolves to a non-public address" none), s)
  | (.ok address, s) =>
      let answer := exchange platform [address] url.origin headers s
      (settleHop platform url maxBytes answer.1, answer.2)

/-- The state of the redirect loop. -/
structure FetchHop where
  current : String
  headers : List (String × String)
  originalOrigin : Option String
  net : NetState

/-- `const { authorization: _drop, ...rest } = headers`. -/
def withoutAuthorization (headers : List (String × String)) : List (String × String) :=
  headers.filter fun header => header.1 ≠ "authorization"

def fetchRound (platform : Platform) (maxBytes : Nat) (hop : FetchHop) :
    (Except FetchError FetchedResource × NetState) ⊕ FetchHop :=
  match isPublicUrl platform ["https:"] hop.current hop.net with
  | (false, net) =>
      .inl (.error (.brain "request_body_invalid"
        "url must be HTTPS and resolve to a public (non-internal) address" none), net)
  | (true, net) =>
      match platform.parse hop.current with
      | none => .inl (.error .invalidUrl, net)
      | some url =>
          let originalOrigin := hop.originalOrigin.getD url.origin
          match getHop platform url hop.headers maxBytes net with
          | (.error error, net) => .inl (.error error, net)
          | (.ok (.resource fetched), net) => .inl (.ok fetched, net)
          | (.ok (.redirectTo location), net) =>
              match platform.parse location with
              | none => .inl (.error .invalidUrl, net)
              | some target =>
                  .inr ⟨location, if target.origin = originalOrigin then hop.headers
                    else withoutAuthorization hop.headers, some originalOrigin, net⟩

def tooManyRedirects (hop : FetchHop) : Except FetchError FetchedResource × NetState :=
  (.error (.brain "dependency_unavailable" "too many redirects" none), hop.net)

def firstHop (url : String) (opts : FetchPublicOptions) (net : NetState) : FetchHop :=
  ⟨url, opts.headers, none, net⟩

def fetchPublicHttps (platform : Platform) (url : String) (opts : FetchPublicOptions)
    (net : NetState) : Except FetchError FetchedResource × NetState :=
  loop (fetchRound platform opts.maxBytes) tooManyRedirects (opts.maxRedirects + 1)
    (firstHop url opts net)

/-! ## The connections of a hop -/

variable {platform : Platform} {hop next : FetchHop} {maxBytes : Nat}

/-- The addresses a hop connects to. -/
def hopAddresses (platform : Platform) (url : Url) (s : NetState) : List Address :=
  match pinnedAddress platform url s with
  | (.error _, _) => []
  | (.ok address, s) => [address].take (platform.tried s.requests)

/-- The connections a round of the redirect loop opens. -/
def hopConnections (platform : Platform) (hop : FetchHop) : List Connection :=
  match isPublicUrl platform ["https:"] hop.current hop.net with
  | (false, _) => []
  | (true, net) =>
      match platform.parse hop.current with
      | none => []
      | some url =>
          (hopAddresses platform url net).map fun address => ⟨address, url.origin, hop.headers⟩

theorem pinnedAddress_opened (platform : Platform) (url : Url) (s : NetState) :
    (pinnedAddress platform url s).2.opened = s.opened := by
  unfold pinnedAddress
  split
  · rfl
  · exact publicOnlyLookup_opened platform _ s

theorem getHop_opened (platform : Platform) (url : Url) (headers : List (String × String))
    (maxBytes : Nat) (s : NetState) :
    (getHop platform url headers maxBytes s).2.opened =
      s.opened ++ (hopAddresses platform url s).map fun address => ⟨address, url.origin, headers⟩ := by
  have hpinned := pinnedAddress_opened platform url s
  unfold getHop hopAddresses
  cases h : pinnedAddress platform url s with
  | mk pinned s' =>
      rw [h] at hpinned
      cases pinned with
      | error cause => cases cause <;> exact hpinned.trans (List.append_nil _).symm
      | ok address => exact congrArg (· ++ _) hpinned

/-- The connections opened by the end of a round. -/
def roundOpened : (Except FetchError FetchedResource × NetState) ⊕ FetchHop → List Connection
  | .inl result => result.2.opened
  | .inr hop => hop.net.opened

theorem fetchRound_opened (platform : Platform) (maxBytes : Nat) (hop : FetchHop) :
    roundOpened (fetchRound platform maxBytes hop) =
      hop.net.opened ++ hopConnections platform hop := by
  have hguard := isPublicUrl_opened platform ["https:"] hop.current hop.net
  unfold fetchRound hopConnections
  cases hpublic : isPublicUrl platform ["https:"] hop.current hop.net with
  | mk allowed net =>
      rw [hpublic] at hguard
      cases allowed with
      | false => exact hguard.trans (List.append_nil _).symm
      | true =>
          cases hparse : platform.parse hop.current with
          | none => exact hguard.trans (List.append_nil _).symm
          | some url =>
              have hhop := getHop_opened platform url hop.headers maxBytes net
              rw [hguard] at hhop
              simp only
              generalize getHop platform url hop.headers maxBytes net = got at hhop
              split
              · exact hhop
              · exact hhop
              · split <;> exact hhop

/-- What a redirect carries over to the next hop. -/
theorem fetchRound_continues (h : fetchRound platform maxBytes hop = .inr next) :
    ∃ url target, platform.parse hop.current = some url ∧ platform.parse next.current = some target ∧
      next.originalOrigin = some (hop.originalOrigin.getD url.origin) ∧
      (target.origin = hop.originalOrigin.getD url.origin ∧ next.headers = hop.headers ∨
        target.origin ≠ hop.originalOrigin.getD url.origin ∧
          next.headers = withoutAuthorization hop.headers) := by
  unfold fetchRound at h
  split at h
  · cases h
  · split at h
    · cases h
    · rename_i url hurl
      simp only at h
      split at h
      · cases h
      · cases h
      · split at h
        · cases h
        · rename_i target htarget
          cases h
          refine ⟨url, target, hurl, htarget, rfl, ?_⟩
          by_cases same : target.origin = hop.originalOrigin.getD url.origin
          · exact .inl ⟨same, if_pos same⟩
          · exact .inr ⟨same, if_neg same⟩

/-- A hop connects to public addresses only: the guard has seen the host, or the lookup is pinned. -/
theorem hopAddresses_public (resolver : Resolver platform) {rawUrl : String} {allowed : List String}
    {s s' : NetState} {url : Url} (hpublic : isPublicUrl platform allowed rawUrl s = (true, s'))
    (hurl : platform.parse rawUrl = some url) {address : Address}
    (h : address ∈ hopAddresses platform url s') : isBlockedAddress address = false := by
  unfold hopAddresses pinnedAddress at h
  cases hliteral : platform.literal (connectHost url.hostname) with
  | some found =>
      rw [hliteral] at h
      cases List.mem_singleton.mp (List.mem_of_mem_take h)
      exact literal_of_isPublicUrl resolver hpublic hurl hliteral
  | none =>
      rw [hliteral] at h
      simp only at h
      split at h
      · cases h
      · rename_i found s'' hlookup
        cases List.mem_singleton.mp (List.mem_of_mem_take h)
        exact publicOnlyLookup_public hlookup

theorem hopConnections_public (resolver : Resolver platform) {connection : Connection}
    (h : connection ∈ hopConnections platform hop) :
    isBlockedAddress connection.address = false := by
  unfold hopConnections at h
  cases hpublic : isPublicUrl platform ["https:"] hop.current hop.net with
  | mk allowed net =>
      rw [hpublic] at h
      cases allowed with
      | false => cases h
      | true =>
          cases hparse : platform.parse hop.current with
          | none =>
              rw [hparse] at h
              cases h
          | some url =>
              rw [hparse] at h
              obtain ⟨address, haddress, rfl⟩ := List.mem_map.mp h
              exact hopAddresses_public resolver hpublic hparse haddress

end BrainCore.Shared.Net
