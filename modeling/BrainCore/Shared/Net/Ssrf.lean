import Mathlib.Data.List.Basic

/-!
# The SSRF guard

`shared/src/net/ssrf.ts`: a URL is public when its scheme is allowed, it carries
no credentials, and its host is, or resolves to, addresses outside the blocked
ranges.  The guard and the connection ask the resolver separately; what the
resolver, the URL parser and the servers do is the environment of a call.
-/

namespace BrainCore.Shared.Net

/-- An IP address. -/
inductive Address where
  | v4 (bits : BitVec 32)
  | v6 (bits : BitVec 128)
deriving DecidableEq

def ipv4 (a b c d : BitVec 8) : BitVec 32 := a ++ b ++ c ++ d

/-- An IPv6 address by its first and its last group; the ones between are zero. -/
def ipv6 (first last : BitVec 16) : BitVec 128 := first ++ 0#96 ++ last

/-- The address shares the first bits of the subnet. -/
def inSubnet {w : Nat} (address subnet : BitVec w) (bits : Nat) : Bool :=
  address >>> (w - bits) = subnet >>> (w - bits)

/-- `BLOCKED`, of IPv4: private, loopback, link-local, CGNAT, unspecified, reserved, multicast. -/
def BLOCKED_V4 : List (BitVec 32 × Nat) :=
  [(ipv4 0 0 0 0, 8), (ipv4 10 0 0 0, 8), (ipv4 100 64 0 0, 10), (ipv4 127 0 0 0, 8),
    (ipv4 169 254 0 0, 16), (ipv4 172 16 0 0, 12), (ipv4 192 0 0 0, 24), (ipv4 192 168 0 0, 16),
    (ipv4 198 18 0 0, 15), (ipv4 224 0 0 0, 4), (ipv4 240 0 0 0, 4)]

/-- `BLOCKED`, of IPv6: unspecified, loopback, ULA, link-local, multicast. -/
def BLOCKED_V6 : List (BitVec 128 × Nat) :=
  [(ipv6 0 0, 128), (ipv6 0 1, 128), (ipv6 0xfc00 0, 7), (ipv6 0xfe80 0, 10), (ipv6 0xff00 0, 8)]

/-- The IPv4 address an IPv4-mapped IPv6 address stands for. -/
def mappedV4 (address : BitVec 128) : Option (BitVec 32) :=
  if address >>> 32 = 0xffff#128 then some (address.setWidth 32) else none

def blockedV4 (address : BitVec 32) : Bool :=
  BLOCKED_V4.any fun subnet => inSubnet address subnet.1 subnet.2

def isBlockedAddress : Address → Bool
  | .v4 address => blockedV4 address
  | .v6 address =>
      (BLOCKED_V6.any fun subnet => inSubnet address subnet.1 subnet.2) ||
        (mappedV4 address).any blockedV4

/-! ## The environment -/

structure Url where
  protocol : String
  username : String
  password : String
  hostname : String
  origin : String
  href : String
deriving DecidableEq

structure Response where
  status : Nat
  location : Option String := none
  contentType : Option String := none
  body : List UInt8 := []
deriving DecidableEq

inductive Reply where
  /-- The connection or the exchange broke off. -/
  | failed
  | timedOut
  | response (response : Response)
deriving DecidableEq

/-- What the platform and the outside world answer in one call. -/
structure Platform where
  /-- `new URL(text)`. -/
  parse : String → Option Url
  /-- `new URL(location, base)`. -/
  resolve : String → Url → Option Url
  /-- `isIP(host)`, with the address the text is. -/
  literal : String → Option Address
  /-- The answer to each lookup in turn; `none` is an error. -/
  dns : Nat → String → Option (List Address)
  /-- To how many of the addresses it is given the platform connects, for each request. -/
  tried : Nat → Nat
  /-- The answer to each request in turn. -/
  reply : Nat → Reply
  /-- The URLs `fetch` does not request, beside those of other schemes. -/
  refused : Url → Bool
  /-- The hex digest of an HMAC-SHA256. -/
  hmac : String → String → String

structure Connection where
  address : Address
  origin : String
  headers : List (String × String)
deriving DecidableEq

/-- Where a call is, and the connections it has opened, the first one first. -/
structure NetState where
  lookups : Nat := 0
  requests : Nat := 0
  opened : List Connection := []
deriving DecidableEq

/-- A host in brackets is an IPv6 literal of a URL. -/
def bracketed (host : String) : Bool := host.toList.head? = some '['

/-- The host a request connects to: the brackets of an IPv6 literal are taken off. -/
def connectHost (hostname : String) : String :=
  if bracketed hostname then String.ofList hostname.toList.tail.dropLast else hostname

theorem connectHost_of_not_bracketed {hostname : String} (h : bracketed hostname = false) :
    connectHost hostname = hostname := by
  rw [connectHost, h]
  rfl

/-- What the guard relies on: a text in brackets is no address, and no name that resolves. -/
structure Resolver (platform : Platform) : Prop where
  notLiteral : ∀ host, bracketed host = true → platform.literal host = none
  notResolved : ∀ n host, bracketed host = true → platform.dns n host = none

def NetState.looked (s : NetState) : NetState := { s with lookups := s.lookups + 1 }

/-- One request, over connections to the addresses the platform tries. -/
def NetState.requested (s : NetState) (addresses : List Address) (origin : String)
    (headers : List (String × String)) : NetState :=
  { s with
    requests := s.requests + 1
    opened := s.opened ++ addresses.map fun address => ⟨address, origin, headers⟩ }

/-! ## The guard -/

/-- The addresses of the host as the guard sees them. -/
def guardAddresses (platform : Platform) (hostname : String) (s : NetState) :
    Option (List Address) × NetState :=
  match platform.literal hostname with
  | some address => (some [address], s)
  | none =>
      match platform.dns s.lookups hostname with
      | none | some [] => (none, s.looked)
      | some (first :: rest) => (some (first :: rest), s.looked)

def isPublicUrl (platform : Platform) (allowed : List String) (rawUrl : String) (s : NetState) :
    Bool × NetState :=
  match platform.parse rawUrl with
  | none => (false, s)
  | some url =>
      if url.protocol ∉ allowed then (false, s)
      else if url.username ≠ "" ∨ url.password ≠ "" then (false, s)
      else
        match guardAddresses platform url.hostname s with
        | (none, s) => (false, s)
        | (some addresses, s) => (addresses.all fun address => !isBlockedAddress address, s)

inductive LookupError where
  | failed
  /-- `ESSRFBLOCKED`. -/
  | ssrfBlocked
deriving DecidableEq

/-- The first public address of the answer. -/
def publicOnlyLookup (platform : Platform) (hostname : String) (s : NetState) :
    Except LookupError Address × NetState :=
  match platform.dns s.lookups hostname with
  | none => (.error .failed, s.looked)
  | some addresses =>
      match addresses.find? fun address => !isBlockedAddress address with
      | none => (.error .ssrfBlocked, s.looked)
      | some valid => (.ok valid, s.looked)

/-! ## What the guard says -/

variable {platform : Platform} {allowed : List String} {rawUrl : String} {s next : NetState}

theorem guardAddresses_opened (platform : Platform) (hostname : String) (s : NetState) :
    (guardAddresses platform hostname s).2.opened = s.opened := by
  unfold guardAddresses
  split
  · rfl
  · split <;> rfl

theorem isPublicUrl_opened (platform : Platform) (allowed : List String) (rawUrl : String)
    (s : NetState) : (isPublicUrl platform allowed rawUrl s).2.opened = s.opened := by
  unfold isPublicUrl
  split
  · rfl
  · split
    · rfl
    · split
      · rfl
      · rename_i url _ _ _
        have hopened := guardAddresses_opened platform url.hostname s
        split <;> rename_i heq <;> rw [heq] at hopened <;> exact hopened

/-- A URL the guard lets through has a host that is a public address or resolved. -/
theorem host_of_isPublicUrl (h : isPublicUrl platform allowed rawUrl s = (true, next)) :
    ∃ url, platform.parse rawUrl = some url ∧ url.protocol ∈ allowed ∧
      ((∃ address, platform.literal url.hostname = some address ∧
          isBlockedAddress address = false) ∨
        platform.literal url.hostname = none ∧
          ∃ answer, platform.dns s.lookups url.hostname = some answer) := by
  unfold isPublicUrl at h
  split at h
  · cases h
  · rename_i url hurl
    split at h
    · cases h
    · rename_i hallowed
      split at h
      · cases h
      · refine ⟨url, hurl, not_not.mp hallowed, ?_⟩
        unfold guardAddresses at h
        cases hliteral : platform.literal url.hostname with
        | some address =>
            rw [hliteral] at h
            refine .inl ⟨address, rfl, ?_⟩
            simpa using congrArg Prod.fst h
        | none =>
            rw [hliteral] at h
            refine .inr ⟨rfl, ?_⟩
            cases hdns : platform.dns s.lookups url.hostname with
            | none =>
                rw [hdns] at h
                cases h
            | some answer => exact ⟨answer, rfl⟩

/-- The guard lets no host in brackets through. -/
theorem not_bracketed_of_isPublicUrl (resolver : Resolver platform)
    (h : isPublicUrl platform allowed rawUrl s = (true, next)) {url : Url}
    (hurl : platform.parse rawUrl = some url) : bracketed url.hostname = false := by
  obtain ⟨other, hother, -, hhost⟩ := host_of_isPublicUrl h
  cases hurl.symm.trans hother
  cases hbracketed : bracketed url.hostname with
  | false => rfl
  | true =>
      obtain ⟨address, hliteral, -⟩ | ⟨-, answer, hanswer⟩ := hhost
      · rw [resolver.notLiteral _ hbracketed] at hliteral
        cases hliteral
      · rw [resolver.notResolved _ _ hbracketed] at hanswer
        cases hanswer

/-- A host the guard lets through is no blocked address. -/
theorem literal_of_isPublicUrl (resolver : Resolver platform)
    (h : isPublicUrl platform allowed rawUrl s = (true, next)) {url : Url}
    (hurl : platform.parse rawUrl = some url) {address : Address}
    (hliteral : platform.literal (connectHost url.hostname) = some address) :
    isBlockedAddress address = false := by
  rw [connectHost_of_not_bracketed (not_bracketed_of_isPublicUrl resolver h hurl)] at hliteral
  obtain ⟨other, hother, -, hhost⟩ := host_of_isPublicUrl h
  cases hurl.symm.trans hother
  obtain ⟨found, hfound, hblocked⟩ | ⟨hnone, -⟩ := hhost
  · cases hliteral.symm.trans hfound
    exact hblocked
  · rw [hnone] at hliteral
    cases hliteral

theorem publicOnlyLookup_opened (platform : Platform) (hostname : String) (s : NetState) :
    (publicOnlyLookup platform hostname s).2.opened = s.opened := by
  unfold publicOnlyLookup
  split
  · rfl
  · split <;> rfl

theorem publicOnlyLookup_public {hostname : String} {address : Address}
    (h : publicOnlyLookup platform hostname s = (.ok address, next)) :
    isBlockedAddress address = false := by
  unfold publicOnlyLookup at h
  split at h
  · cases h
  · split at h
    · cases h
    · rename_i valid hvalid
      cases h
      simpa using List.find?_some hvalid

end BrainCore.Shared.Net
