import BrainCore.Shared.Net.WebhookDelivery

/-!
# Where outbound requests go

`fetchPublicHttps` connects to public addresses only, whatever the resolver and
the servers answer.  A webhook delivery does so just when every request of the
platform's `fetch` finds public addresses, the redirected ones included: the guard
sees the endpoint's first resolution and no more.
-/

namespace BrainCore.Shared.Net

open Foundation.BoundedLoop

inductive OutboundCall where
  | fetchPublicHttps (url : String) (opts : FetchPublicOptions)
  | deliverWebhook (endpoint : Endpoint) (payload : String)

/-- The connections a call opens. -/
def OutboundCall.opened (platform : Platform) : OutboundCall → List Connection
  | .fetchPublicHttps url opts => (Net.fetchPublicHttps platform url opts {}).2.opened
  | .deliverWebhook endpoint payload => (Net.deliverWebhook platform endpoint payload {}).2.opened

def firstOrigin (platform : Platform) (url : String) : Option String :=
  (platform.parse url).map Url.origin

/-- A connection to another origin carries no credential. -/
def Withheld (credential : String → Bool) (origin : Option String) (connection : Connection) : Prop :=
  some connection.origin = origin ∨ ∀ header ∈ connection.headers, credential header.1 = false

/-- The call connects to public addresses only, and sends no credential of a fetch elsewhere. -/
structure SafeCall (platform : Platform) (credential : String → Bool) (call : OutboundCall) : Prop where
  publicOnly : ∀ connection ∈ call.opened platform, isBlockedAddress connection.address = false
  withheld : ∀ url opts, call = .fetchPublicHttps url opts →
    ∀ connection ∈ call.opened platform, Withheld credential (firstOrigin platform url) connection

/-! ## The redirect loop of a fetch -/

variable {platform : Platform} {credential : String → Bool}

/-- The hops that connect stay on the first origin. -/
def StaysHome (platform : Platform) (url : String) (opts : FetchPublicOptions) : Prop :=
  EveryRound (fetchRound platform opts.maxBytes)
    (fun hop => ∀ connection ∈ hopConnections platform hop,
      some connection.origin = firstOrigin platform url)
    (opts.maxRedirects + 1) (firstHop url opts {})

/-- The credentials of the caller are under the one name that is dropped. -/
def NamedAuthorization (credential : String → Bool) (opts : FetchPublicOptions) : Prop :=
  ∀ header ∈ opts.headers, credential header.1 = true → header.1 = "authorization"

theorem fetch_good_iff (platform : Platform) (url : String) (opts : FetchPublicOptions)
    (good : Connection → Prop) :
    (∀ connection ∈ (fetchPublicHttps platform url opts {}).2.opened, good connection) ↔
      EveryRound (fetchRound platform opts.maxBytes)
        (fun hop => ∀ connection ∈ hopConnections platform hop, good connection)
        (opts.maxRedirects + 1) (firstHop url opts {}) := by
  have hopened := fetchRound_opened platform opts.maxBytes
  refine (final_good_iff (fun hop => hop.net.opened)
    (fun result : Except FetchError FetchedResource × NetState => result.2.opened)
    (hopConnections platform) good (fun hop result h => ?_) (fun hop next h => ?_) (fun _ => rfl)
    (opts.maxRedirects + 1) (firstHop url opts {})).trans ?_
  · have hround := hopened hop
    rw [h] at hround
    exact hround
  · have hround := hopened hop
    rw [h] at hround
    exact hround
  · exact and_iff_right fun _ h => by cases h

/-- A fetch connects to public addresses only. -/
theorem fetch_publicOnly (resolver : Resolver platform) (url : String) (opts : FetchPublicOptions) :
    ∀ connection ∈ (fetchPublicHttps platform url opts {}).2.opened,
      isBlockedAddress connection.address = false := by
  rw [fetch_good_iff]
  exact everyRound_of_invariant (fun _ => True) (fun _ _ _ _ => trivial)
    (fun _ _ _ h => hopConnections_public resolver h) _ _ trivial

/-- Away from the first origin the headers are the caller's without `authorization`. -/
structure HopHeaders (platform : Platform) (url : String) (opts : FetchPublicOptions)
    (hop : FetchHop) : Prop where
  origin : ∀ current, platform.parse hop.current = some current →
    some (hop.originalOrigin.getD current.origin) = firstOrigin platform url
  headers : hop.headers = opts.headers ∧ firstOrigin platform hop.current = firstOrigin platform url ∨
    hop.headers = withoutAuthorization opts.headers

theorem withoutAuthorization_twice (headers : List (String × String)) :
    withoutAuthorization (withoutAuthorization headers) = withoutAuthorization headers := by
  simp [withoutAuthorization, List.filter_filter]

theorem hopHeaders_first (url : String) (opts : FetchPublicOptions) :
    HopHeaders platform url opts (firstHop url opts {}) where
  origin := fun current h => by
    rw [firstOrigin, show platform.parse url = some current from h]
    rfl
  headers := .inl ⟨rfl, rfl⟩

theorem hopHeaders_next {url : String} {opts : FetchPublicOptions} {maxBytes : Nat}
    {hop next : FetchHop} (hhop : HopHeaders platform url opts hop)
    (h : fetchRound platform maxBytes hop = .inr next) : HopHeaders platform url opts next := by
  obtain ⟨current, target, hcurrent, htarget, horigin, hheaders⟩ := fetchRound_continues h
  have hfirst := hhop.origin current hcurrent
  refine ⟨fun other _ => ?_, ?_⟩
  · rw [horigin]
    exact hfirst
  · obtain ⟨same, hsame⟩ | ⟨-, hdropped⟩ := hheaders
    · obtain ⟨hcaller, -⟩ | hstripped := hhop.headers
      · refine .inl ⟨hsame.trans hcaller, ?_⟩
        rw [firstOrigin, htarget, ← hfirst, Option.map_some, same]
      · exact .inr (hsame.trans hstripped)
    · obtain ⟨hcaller, -⟩ | hstripped := hhop.headers
      · exact .inr (hdropped.trans (congrArg _ hcaller))
      · refine .inr (hdropped.trans ?_)
        rw [hstripped, withoutAuthorization_twice]

/-- A connection of a hop has the origin of its URL and the headers of the hop. -/
theorem hopConnections_from {hop : FetchHop} {connection : Connection}
    (h : connection ∈ hopConnections platform hop) :
    some connection.origin = firstOrigin platform hop.current ∧ connection.headers = hop.headers := by
  unfold hopConnections at h
  cases hpublic : isPublicUrl platform ["https:"] hop.current hop.net with
  | mk allowed net =>
      rw [hpublic] at h
      cases allowed with
      | false => cases h
      | true =>
          cases hparse : platform.parse hop.current with
          | none =>
              rw [hparse] at h
              cases h
          | some current =>
              rw [hparse] at h
              obtain ⟨address, -, rfl⟩ := List.mem_map.mp h
              exact ⟨by rw [firstOrigin, hparse]; rfl, rfl⟩

/-- With every credential under the name that is dropped, no hop sends one elsewhere. -/
theorem hop_withheld_of_named {url : String} {opts : FetchPublicOptions}
    (named : NamedAuthorization credential opts) {hop : FetchHop}
    (hhop : HopHeaders platform url opts hop) :
    ∀ connection ∈ hopConnections platform hop,
      Withheld credential (firstOrigin platform url) connection := by
  intro connection hconnection
  obtain ⟨horigin, hheaders⟩ := hopConnections_from hconnection
  obtain ⟨-, hhome⟩ | hstripped := hhop.headers
  · exact .inl (horigin.trans hhome)
  · refine .inr fun header hheader => ?_
    rw [hheaders, hstripped] at hheader
    obtain ⟨hmem, hname⟩ := List.mem_filter.mp hheader
    have hname : header.1 ≠ "authorization" := of_decide_eq_true hname
    cases hcredential : credential header.1 with
    | false => rfl
    | true => exact absurd (named header hmem hcredential) hname

/-- A credential under another name is on every hop, so a hop withholds it only at home. -/
theorem hop_withheld_iff_home {url : String} {opts : FetchPublicOptions}
    {header : String × String} (hheader : header ∈ opts.headers)
    (hcredential : credential header.1 = true) (hname : header.1 ≠ "authorization")
    {hop : FetchHop} (hhop : HopHeaders platform url opts hop) :
    (∀ connection ∈ hopConnections platform hop,
        Withheld credential (firstOrigin platform url) connection) ↔
      ∀ connection ∈ hopConnections platform hop,
        some connection.origin = firstOrigin platform url := by
  have hcarried : header ∈ hop.headers := by
    obtain ⟨hcaller, -⟩ | hstripped := hhop.headers
    · exact hcaller ▸ hheader
    · rw [hstripped]
      exact List.mem_filter.mpr ⟨hheader, decide_eq_true hname⟩
  refine forall₂_congr fun connection hconnection => ⟨fun h => ?_, .inl⟩
  obtain hhome | hnone := h
  · exact hhome
  · have hheaders := (hopConnections_from hconnection).2
    rw [hnone header (hheaders ▸ hcarried)] at hcredential
    cases hcredential

theorem fetch_withheld_iff (url : String) (opts : FetchPublicOptions) :
    (∀ connection ∈ (fetchPublicHttps platform url opts {}).2.opened,
        Withheld credential (firstOrigin platform url) connection) ↔
      NamedAuthorization credential opts ∨ StaysHome platform url opts := by
  rw [fetch_good_iff]
  by_cases named : NamedAuthorization credential opts
  · refine iff_of_true ?_ (.inl named)
    exact everyRound_of_invariant (HopHeaders platform url opts) (fun _ _ => hopHeaders_next)
      (fun _ => hop_withheld_of_named named) _ _ (hopHeaders_first url opts)
  · rw [or_iff_right named]
    obtain ⟨header, hheader, hcredential, hname⟩ :
        ∃ header ∈ opts.headers, credential header.1 = true ∧ header.1 ≠ "authorization" := by
      simpa [NamedAuthorization] using named
    exact everyRound_congr (HopHeaders platform url opts) (fun _ _ => hopHeaders_next)
      (fun _ => hop_withheld_iff_home hheader hcredential hname) _ _ (hopHeaders_first url opts)

/-! ## The requests of a delivery -/

/-- Each host `fetch` connects to is, or resolves at that request to, a public address. -/
def PublicHops (platform : Platform) (endpoint : Endpoint) (payload : String) : Prop :=
  ∀ net url, isPublicUrl platform ["http:", "https:"] endpoint.url {} = (true, net) →
    platform.parse endpoint.url = some url →
    EveryRound (platformRound platform)
      (fun hop => ∀ address ∈ platformAddresses platform hop, isBlockedAddress address = false) 21
      (firstDelivery platform endpoint payload url net)

theorem platformFetch_public_iff (platform : Platform) (first : PlatformHop)
    (hfirst : first.net.opened = []) :
    (∀ connection ∈ (platformFetch platform first).2.opened,
        isBlockedAddress connection.address = false) ↔
      EveryRound (platformRound platform)
        (fun hop => ∀ address ∈ platformAddresses platform hop, isBlockedAddress address = false) 21
        first := by
  have hopened := platformRound_opened platform
  refine (final_good_iff (fun hop => hop.net.opened)
    (fun result : Except String Response × NetState => result.2.opened)
    (platformConnections platform) (fun connection => isBlockedAddress connection.address = false)
    (fun hop result h => ?_) (fun hop next h => ?_) (fun _ => rfl) 21 first).trans ?_
  · have hround := hopened hop
    rw [h] at hround
    exact hround
  · have hround := hopened hop
    rw [h] at hround
    exact hround
  · rw [hfirst, and_iff_right fun _ h => by cases h]
    exact everyRound_congr (fun _ => True) (fun _ _ _ _ => trivial)
      (fun hop _ => List.forall_mem_map) 21 first trivial

theorem delivery_public_iff (platform : Platform) (endpoint : Endpoint) (payload : String) :
    (∀ connection ∈ (deliverWebhook platform endpoint payload {}).2.opened,
        isBlockedAddress connection.address = false) ↔ PublicHops platform endpoint payload := by
  have hguard := isPublicUrl_opened platform ["http:", "https:"] endpoint.url {}
  unfold deliverWebhook PublicHops
  cases hpublic : isPublicUrl platform ["http:", "https:"] endpoint.url {} with
  | mk allowed net =>
      rw [hpublic] at hguard
      cases allowed with
      | false =>
          refine iff_of_true (fun connection h => ?_) fun _ _ h => ?_
          · rw [show net.opened = [] from hguard] at h
            cases h
          · cases h
      | true =>
          cases hparse : platform.parse endpoint.url with
          | none =>
              refine iff_of_true (fun connection h => ?_) fun _ _ _ h => ?_
              · rw [show net.opened = [] from hguard] at h
                cases h
              · cases h
          | some url =>
              refine (platformFetch_public_iff platform _ hguard).trans ⟨fun h other found hother hfound => ?_,
                fun h => h net url rfl rfl⟩
              cases hother
              cases hfound
              exact h

/-! ## Every call -/

def Admitted (platform : Platform) (credential : String → Bool) : OutboundCall → Prop
  | .fetchPublicHttps url opts => NamedAuthorization credential opts ∨ StaysHome platform url opts
  | .deliverWebhook endpoint payload => PublicHops platform endpoint payload

/-- A call is safe just when its credentials are droppable or stay at home, or its hops are public. -/
theorem safeCall_iff_admitted (resolver : Resolver platform) (credential : String → Bool)
    (call : OutboundCall) : SafeCall platform credential call ↔ Admitted platform credential call := by
  cases call with
  | fetchPublicHttps url opts =>
      refine Iff.trans ?_ (fetch_withheld_iff url opts)
      refine ⟨fun h => h.withheld url opts rfl, fun h => ⟨fetch_publicOnly resolver url opts, ?_⟩⟩
      intro other others same
      cases same
      exact h
  | deliverWebhook endpoint payload =>
      refine Iff.trans ?_ (delivery_public_iff platform endpoint payload)
      refine ⟨SafeCall.publicOnly, fun h => ⟨h, fun other others same => ?_⟩⟩
      cases same

/-! ## A redirect to the metadata address -/

namespace MetadataRedirect

def hooks : Url := ⟨"https:", "", "", "hooks.example", "https://hooks.example", "https://hooks.example/in"⟩

def files : Url := ⟨"https:", "", "", "files.example", "https://files.example", "https://files.example/a"⟩

def metadata : Url :=
  ⟨"http:", "", "", "169.254.169.254", "http://169.254.169.254", "http://169.254.169.254/latest"⟩

def parse (text : String) : Option Url := [hooks, files, metadata].find? fun url => url.href = text

/-- Every name resolves to one public address, and the first request is redirected. -/
def redirecting (status : Nat) (target : Url) : Platform where
  parse := parse
  resolve location _ := parse location
  literal host := if host = metadata.hostname then some (.v4 (ipv4 169 254 169 254)) else none
  dns _ host := if bracketed host then none else some [.v4 (ipv4 93 184 216 34)]
  tried _ := 1
  reply n := .response (if n = 0 then { status, location := some target.href } else { status := 200 })
  refused _ := false
  hmac _ _ := "5257a869"

theorem resolver (status : Nat) (target : Url) : Resolver (redirecting status target) where
  notLiteral := fun host h => by
    refine if_neg fun same => ?_
    rw [same] at h
    revert h
    decide
  notResolved := fun _ _ h => if_pos h

def endpoint : Endpoint := ⟨hooks.href, "whsec"⟩

/-- The endpoint passes the guard, answers 307, and the platform connects to the metadata address. -/
theorem metadata_connected :
    ¬ SafeCall (redirecting 307 metadata) (fun name => name = "authorization")
      (.deliverWebhook endpoint "\x7b\x7d") := by
  intro safe
  have hconnected : (⟨.v4 (ipv4 169 254 169 254), metadata.origin,
      [("Content-Type", "application/json"), ("Brain-Signature", "sha256=5257a869")]⟩ : Connection) ∈
        (OutboundCall.deliverWebhook endpoint "\x7b\x7d").opened (redirecting 307 metadata) := by decide
  have hpublic := safe.publicOnly _ hconnected
  revert hpublic
  decide

def artifact : OutboundCall :=
  .fetchPublicHttps files.href { headers := [("authorization", "Bearer t")], maxBytes := 1024 }

/-- A fetch redirected to another public origin leaves its authorization at home. -/
theorem artifact_fetched : SafeCall (redirecting 302 hooks) (fun name => name = "authorization") artifact :=
  (safeCall_iff_admitted (resolver 302 hooks) _ artifact).mpr
    (.inl fun _ _ h => of_decide_eq_true h)

end MetadataRedirect

end BrainCore.Shared.Net
