import BrainCore.Shared.Net.SafeFetch

/-!
# Delivering a webhook

`shared/src/webhooks/outbound.ts`, `deliverWebhook`: the guard is asked once, for
the endpoint's URL, and the platform's `fetch` makes the request.  `fetch` looks
the host up again and follows up to twenty redirects by itself.
-/

namespace BrainCore.Shared.Net

open Foundation.BoundedLoop

structure Endpoint where
  url : String
  secret : String

structure DeliveryResult where
  ok : Bool
  error : Option String := none
deriving DecidableEq

/-- `sign`, of the secret and the body. -/
def sign (platform : Platform) (secret body : String) : String := platform.hmac secret body

/-- One request of `fetch`. -/
structure PlatformHop where
  url : Url
  post : Bool
  headers : List (String × String)
  net : NetState

/-- The addresses the platform has for a host; a failed lookup has none. -/
def platformLookup (platform : Platform) (hostname : String) (s : NetState) :
    List Address × NetState :=
  match platform.literal hostname with
  | some address => ([address], s)
  | none => ((platform.dns s.lookups hostname).getD [], s.looked)

/-- The statuses `fetch` follows. -/
def platformRedirect (response : Response) : Option String :=
  if response.status ∈ [301, 302, 303, 307, 308] then response.location else none

/-- After 303, and for a POST after 301 and 302, the next request is a GET without a body. -/
def redirectedHop (hop : PlatformHop) (status : Nat) (target : Url) (net : NetState) : PlatformHop :=
  if hop.post = true ∧ status ∈ [301, 302, 303] then
    ⟨target, false, hop.headers.filter fun header => header.1 ≠ "Content-Type", net⟩
  else ⟨target, hop.post, hop.headers, net⟩

def abortedByTimeout : String := "The operation was aborted due to timeout"

/-- `fetch` requests the URL. -/
def requestable (platform : Platform) (url : Url) : Bool :=
  (url.protocol = "http:" || url.protocol = "https:") && !platform.refused url

def platformRound (platform : Platform) (hop : PlatformHop) :
    (Except String Response × NetState) ⊕ PlatformHop :=
  if requestable platform hop.url then
    let addresses := platformLookup platform (connectHost hop.url.hostname) hop.net
    let answer := exchange platform addresses.1 hop.url.origin hop.headers addresses.2
    match answer.1 with
    | .failed => .inl (.error "fetch failed", answer.2)
    | .timedOut => .inl (.error abortedByTimeout, answer.2)
    | .response response =>
        match platformRedirect response with
        | none => .inl (.ok response, answer.2)
        | some location =>
            match platform.resolve location hop.url with
            | none => .inl (.error "fetch failed", answer.2)
            | some target => .inr (redirectedHop hop response.status target answer.2)
  else .inl (.error "fetch failed", hop.net)

/-- The first request and twenty redirects. -/
def platformFetch (platform : Platform) (hop : PlatformHop) : Except String Response × NetState :=
  loop (platformRound platform) (fun hop => (.error "fetch failed", hop.net)) 21 hop

def firstDelivery (platform : Platform) (endpoint : Endpoint) (payload : String) (url : Url)
    (net : NetState) : PlatformHop :=
  ⟨url, true, [("Content-Type", "application/json"),
    ("Brain-Signature", "sha256=" ++ sign platform endpoint.secret payload)], net⟩

def deliveryResult : Except String Response → DeliveryResult
  | .error message => ⟨false, some message⟩
  | .ok response =>
      if 200 ≤ response.status ∧ response.status < 300 then ⟨true, none⟩
      else ⟨false, some ("HTTP " ++ toString response.status)⟩

def deliverWebhook (platform : Platform) (endpoint : Endpoint) (payload : String) (net : NetState) :
    DeliveryResult × NetState :=
  match isPublicUrl platform ["http:", "https:"] endpoint.url net with
  | (false, net) => (⟨false, some "url is not a public address"⟩, net)
  | (true, net) =>
      match platform.parse endpoint.url with
      | none => (⟨false, some "Failed to parse URL"⟩, net)
      | some url =>
          let answer := platformFetch platform (firstDelivery platform endpoint payload url net)
          (deliveryResult answer.1, answer.2)

/-! ## The connections of a request -/

/-- The addresses a request of `fetch` connects to. -/
def platformAddresses (platform : Platform) (hop : PlatformHop) : List Address :=
  if requestable platform hop.url then
    let addresses := platformLookup platform (connectHost hop.url.hostname) hop.net
    addresses.1.take (platform.tried addresses.2.requests)
  else []

/-- The connections a request of `fetch` opens. -/
def platformConnections (platform : Platform) (hop : PlatformHop) : List Connection :=
  (platformAddresses platform hop).map fun address => ⟨address, hop.url.origin, hop.headers⟩

def platformOpened : (Except String Response × NetState) ⊕ PlatformHop → List Connection
  | .inl result => result.2.opened
  | .inr hop => hop.net.opened

theorem platformLookup_opened (platform : Platform) (hostname : String) (s : NetState) :
    (platformLookup platform hostname s).2.opened = s.opened := by
  unfold platformLookup
  split <;> rfl

theorem redirectedHop_net (hop : PlatformHop) (status : Nat) (target : Url) (net : NetState) :
    (redirectedHop hop status target net).net = net := by
  unfold redirectedHop
  split <;> rfl

theorem platformRound_opened (platform : Platform) (hop : PlatformHop) :
    platformOpened (platformRound platform hop) =
      hop.net.opened ++ platformConnections platform hop := by
  unfold platformRound platformConnections platformAddresses
  by_cases hrequest : requestable platform hop.url = true
  · rw [if_pos hrequest, if_pos hrequest]
    have hlookup := platformLookup_opened platform (connectHost hop.url.hostname) hop.net
    have hopened : ∀ origin headers,
        (exchange platform (platformLookup platform (connectHost hop.url.hostname) hop.net).1 origin
          headers (platformLookup platform (connectHost hop.url.hostname) hop.net).2).2.opened =
        hop.net.opened ++ (((platformLookup platform (connectHost hop.url.hostname) hop.net).1.take
          (platform.tried (platformLookup platform (connectHost hop.url.hostname)
            hop.net).2.requests)).map fun address => ⟨address, origin, headers⟩) :=
      fun _ _ => congrArg (· ++ _) hlookup
    simp only
    split
    · exact hopened _ _
    · exact hopened _ _
    · split
      · exact hopened _ _
      · split
        · exact hopened _ _
        · rw [platformOpened, redirectedHop_net]
          exact hopened _ _
  · rw [if_neg hrequest, if_neg hrequest]
    exact (List.append_nil _).symm

end BrainCore.Shared.Net
