import OpenGroupware.Jwks

/-!
Authentication of requests: the routers of admin-api and abuse-api, the layer
around their routes, and what is true of a request whose handler runs.
-/

namespace OpenGroupware

open Timed Serde

/-! ### Headers -/

/-- A request before it is routed. -/
structure HttpRequest where
  method : Method
  path : List Char
  /-- Names in lower case, in the order in which they were sent. -/
  headers : List (String × Bytes)

/-- `HeaderValue::to_str`: visible ASCII, blanks and tabs. -/
def toStr (value : Bytes) : Option (List Char) :=
  if value.all fun b => b == 9 || (32 ≤ b && b < 127) then
    some (value.map fun b => Char.ofNat b.toNat)
  else none

def stripPrefix : List Char → List Char → Option (List Char)
  | [], s => some s
  | c :: p, d :: s => if c = d then stripPrefix p s else none
  | _ :: _, [] => none

/-- The token of the first `Authorization` header. -/
def bearer (headers : List (String × Bytes)) : Option (List Char) := do
  let value ← headers.lookup "authorization"
  let s ← toStr value
  stripPrefix "Bearer ".toList s

theorem stripPrefix_eq_some {p s t : List Char} (h : stripPrefix p s = some t) : s = p ++ t := by
  induction p generalizing s with
  | nil => exact Option.some.inj h
  | cons c p ih =>
      cases s with
      | nil => cases h
      | cons d s =>
          rw [stripPrefix] at h
          split at h
          · rename_i hc
            rw [hc, ih h, List.cons_append]
          · cases h

theorem utf8EncodeChar_ascii :
    ∀ n < 128, String.utf8EncodeChar (Char.ofNat n) = [UInt8.ofNat n] := by
  decide

/-- A header value is the bytes of its text. -/
theorem textBytes_of_toStr {value : Bytes} {s : List Char} (h : toStr value = some s) :
    textBytes s = value := by
  rw [toStr] at h
  split at h
  · rename_i hall
    obtain rfl := Option.some.inj h
    rw [textBytes, List.flatMap_map]
    have hencode : ∀ b ∈ value, String.utf8EncodeChar (Char.ofNat b.toNat) = [b] := by
      intro b hb
      have hvisible := List.all_eq_true.1 hall b hb
      have hlt : b.toNat < 128 := by
        simp only [Bool.or_eq_true, beq_iff_eq, Bool.and_eq_true, decide_eq_true_iff] at hvisible
        rcases hvisible with rfl | ⟨-, hvisible⟩
        · decide
        · exact Nat.lt_trans (UInt8.lt_iff_toNat_lt.1 hvisible) (by decide)
      rw [utf8EncodeChar_ascii _ hlt, UInt8.ofNat_toNat]
    clear hall h
    induction value with
    | nil => rfl
    | cons b value ih =>
        rw [List.flatMap_cons, hencode b List.mem_cons_self,
          ih fun x hx => hencode x (List.mem_cons_of_mem b hx)]
        rfl
  · cases h

theorem mem_of_bearer {headers : List (String × Bytes)} {token : List Char}
    (h : bearer headers = some token) :
    ("authorization", textBytes ("Bearer ".toList ++ token)) ∈ headers := by
  simp only [bearer, bind, Option.bind_eq_some_iff] at h
  obtain ⟨value, hvalue, s, hs, hstrip⟩ := h
  rw [← stripPrefix_eq_some hstrip, textBytes_of_toStr hs]
  obtain ⟨before, after, rfl, -⟩ := List.lookup_eq_some_iff.1 hvalue
  exact List.mem_append_right before List.mem_cons_self

/-! ### Routers -/

inductive Segment
  | text (s : String)
  | param (name : String)

def Segment.matches : Segment → List Char → Bool
  | .text s, cs => decide (cs = s.toList)
  | .param _, cs => !cs.isEmpty

def matchSegments : List Segment → List (List Char) → Bool
  | [], [] => true
  | t :: template, cs :: path => t.matches cs && matchSegments template path
  | _, _ => false

/-- The template of a route covers a path. -/
def pathMatches (template : List Segment) (path : List Char) : Bool :=
  match path.splitOn '/' with
  | [] :: path => matchSegments template path
  | _ => false

inductive Endpoint
  | createTenant
  | listTenants
  | createDomain
  | listDomains
  | createAccount
  | listAccounts
  | getPolicy
  | putPolicy
  | recordDecision
  | listQuarantine
  | releaseItem
  | reportItem
deriving DecidableEq

inductive Api
  | admin
  | abuse

def tenants : List Segment := [.text "api", .text "v1", .text "tenants"]

def Api.routes : Api → List (List Segment × List (Method × Endpoint))
  | .admin =>
      [(tenants, [(.post, .createTenant), (.get, .listTenants)]),
        (tenants ++ [.param "tenant_id", .text "domains"],
          [(.post, .createDomain), (.get, .listDomains)]),
        (tenants ++ [.param "tenant_id", .text "accounts"],
          [(.post, .createAccount), (.get, .listAccounts)]),
        (tenants ++ [.param "tenant_id", .text "policy"],
          [(.get, .getPolicy), (.put, .putPolicy)])]
  | .abuse =>
      [(tenants ++ [.param "tenant_id", .text "abuse", .text "decisions"],
          [(.post, .recordDecision)]),
        (tenants ++ [.param "tenant_id", .text "quarantine"], [(.get, .listQuarantine)]),
        (tenants ++ [.param "tenant_id", .text "quarantine", .param "item_id", .text "release"],
          [(.post, .releaseItem)]),
        (tenants ++ [.param "tenant_id", .text "quarantine", .param "item_id", .text "report"],
          [(.post, .reportItem)])]

/-- `get` answers `HEAD` as well. -/
def handlerFor (handlers : List (Method × Endpoint)) (m : Method) : Option Endpoint :=
  handlers.lookup (if m = .head then .get else m)

/-- The open probes. -/
def exempt (path : List Char) : Bool :=
  decide (path = "/health".toList) || decide (path = "/metrics".toList)

theorem not_exempt_of_matches {api : Api} {path : List Char} {template : List Segment}
    {handlers : List (Method × Endpoint)} (hroute : (template, handlers) ∈ api.routes)
    (hpath : pathMatches template path = true) : exempt path = false := by
  have hroutes : ∀ route ∈ api.routes, pathMatches route.1 "/health".toList = false ∧
      pathMatches route.1 "/metrics".toList = false := by
    cases api <;> decide +kernel
  obtain ⟨hhealth, hmetrics⟩ := hroutes _ hroute
  rw [exempt, Bool.or_eq_false_iff, decide_eq_false_iff_not, decide_eq_false_iff_not]
  constructor
  · rintro rfl
    rw [hhealth] at hpath
    cases hpath
  · rintro rfl
    rw [hmetrics] at hpath
    cases hpath

/-! ### The layer -/

/-- What becomes of a request: a handler gets it, with the caller the layer has
put into its extensions, or it is answered before. -/
inductive Outcome
  | handler (e : Endpoint) (caller : Option Caller)
  | probe
  | unauthorized
  | methodNotAllowed
  | notFound

def AuthConfig.enforcing (cfg : AuthConfig) : Bool := cfg.jwksUrl.isSome

section

variable (crates : Crates) (cfg : AuthConfig)

/-- `Authenticator::caller`. -/
def callerFrom (headers : List (String × Bytes)) : AuthM Caller :=
  if !cfg.enforcing then
    return {
      subject := ((headers.lookup "x-actor").bind toStr).elim "unknown" String.ofList
      tenantId := none
      roles := [] }
  else do
    let token ← okOr .missingToken (bearer headers)
    verify crates cfg token

def requireAuth (req : HttpRequest) (next : Option Caller → Outcome) : AuthProgram Outcome :=
  if exempt req.path then return next none
  else do
    match ← (callerFrom crates cfg req.headers).run with
    | .ok caller => return next (some caller)
    | .error _ => return .unauthorized

/-- A router with its layer, and the probes that the service adds around it. -/
def Api.serve (api : Api) (req : HttpRequest) : AuthProgram Outcome :=
  match api.routes.find? fun route => pathMatches route.1 req.path with
  | some (_, handlers) =>
      requireAuth crates cfg req fun caller =>
        match handlerFor handlers req.method with
        | some e => .handler e caller
        | none => .methodNotAllowed
  | none =>
      if exempt req.path then
        return if req.method = .get ∨ req.method = .head then .probe else .methodNotAllowed
      else requireAuth crates cfg req fun _ => .notFound

end

/-- Where tokens are asked for, whoever has none is turned away at once. -/
theorem serve_tokenless {cfg : AuthConfig} (henforcing : cfg.enforcing = true) (crates : Crates)
    (api : Api) {req : HttpRequest} (hexempt : exempt req.path = false)
    (htoken : bearer req.headers = none) : api.serve crates cfg req = pure .unauthorized := by
  have hrefused : ∀ next, requireAuth crates cfg req next = pure .unauthorized := by
    intro next
    rw [requireAuth, hexempt, callerFrom, henforcing, htoken]
    rfl
  unfold Api.serve
  split
  · exact hrefused _
  · rw [hexempt, if_neg Bool.false_ne_true]
    exact hrefused _

/-! ### Authenticated requests -/

/-- The request carries a token that is genuine by a key of a fetched document,
issued by the configured issuer, and the caller is the one it names. -/
def Authenticated (crates : Crates) (cfg : AuthConfig) (fetched : List (Bytes × Nat))
    (req : HttpRequest) (caller : Caller) : Prop :=
  ∃ token claims, ("authorization", textBytes ("Bearer ".toList ++ token)) ∈ req.headers ∧
    Genuine crates (fun kid key => ∃ doc ∈ fetched, Publishes crates doc.1 kid key) token claims ∧
    (∀ expected, cfg.issuer = some expected → claims.iss = expected) ∧
    caller.subject = claims.sub ∧ caller.roles = (claims.sx.map Sx.roles).getD [] ∧
    ∀ u, caller.tenantId = some u ↔
      ∃ text, claims.tenantId = some text ∧ crates.parseUuid text = some u

/-- Every key in the cache is one of a fetched document. -/
def provenance (crates : Crates) (fetched : List (Bytes × Nat)) : Contract CachedKeys Bytes where
  cell entry := ∀ kid key, entry.keys kid = some key →
    ∃ doc ∈ fetched, Publishes crates doc.1 kid key
  serve _ _ := True
  arrive body served := (body, served) ∈ fetched
  stamp _ _ := True
  wall _ := True

section

variable {crates : Crates} {cfg : AuthConfig} {fetched : List (Bytes × Nat)}

theorem provenance_allows (crates : Crates) {C α : Type} {σ : Sys CachedKeys Bytes C α}
    {l : Label Bytes C}
    (h : ∀ p P x, l = .act p .deliver → σ.procs p = some P → P.mail = some x → x ∈ fetched) :
    (provenance crates fetched).Allows σ l := by
  cases l with
  | act p a =>
      cases a with
      | serve body => trivial
      | deliver => exact fun P hP x hx => h p P x rfl hP hx
      | stamp => exact fun _ _ => trivial
      | look | lose | put | clock => trivial
  | tick | spawn | reply | cancel => trivial

theorem keys_of_cachedKey {kid : String} {entry : CachedKeys} {now : Nat} {key : Bytes}
    (h : cachedKey cfg kid (some entry) now = some key) : entry.keys kid = some key := by
  rw [cachedKey, Option.bind_some] at h
  split at h
  · cases h
  · exact h

theorem vouches_provenance (t : Nat) : Vouches crates cfg (provenance crates fetched)
    (fun kid key => ∃ doc ∈ fetched, Publishes crates doc.1 kid key) t :=
  ⟨fun _ _ kid key hentry _ hfound => hentry kid key (keys_of_cachedKey hfound),
    fun body served _ _ _ harrive _ _ hset _ _ hkey =>
      ⟨(body, served), harrive, publishes_of_parseJwks hset hkey⟩⟩

theorem callerOf_ok {claims : Claims} {now : Int} {caller : Caller}
    (h : callerOf crates cfg claims now = .ok caller) :
    (∀ expected, cfg.issuer = some expected → claims.iss = expected) ∧
      caller.subject = claims.sub ∧ caller.roles = (claims.sx.map Sx.roles).getD [] ∧
      caller.tenantId = claims.tenantId.bind crates.parseUuid := by
  unfold callerOf at h
  split at h
  · cases h
  · split at h
    · rename_i hissuer
      obtain rfl := Except.ok.inj h
      refine ⟨fun expected hexpected => ?_, rfl, rfl, rfl⟩
      rw [hexpected] at hissuer
      exact of_decide_eq_true hissuer
    · cases h

/-- A caller comes from a token when tokens are asked for. -/
theorem meets_callerFrom (henforcing : cfg.enforcing = true) (req : HttpRequest)
    {got : Option (Bytes × Nat)} {t : Nat} :
    Meets (provenance crates fetched) (fun _ _ r => ∀ caller, r = .ok caller →
      Authenticated crates cfg fetched req caller) got t
        (callerFrom crates cfg req.headers).run := by
  unfold callerFrom
  rw [henforcing]
  change Meets _ _ _ _ (okOr .missingToken (bearer req.headers) >>= fun token => _).run
  refine Meets.run_bind (meets_okOr.mono fun got₁ t₁ r hr => ?_)
  obtain ⟨-, rfl, htoken⟩ := hr
  cases r with
  | error e => exact nofun
  | ok token =>
      refine (meets_verify (vouches_provenance _) token).mono fun _ _ r hr caller hcaller => ?_
      obtain ⟨claims, secs, hgenuine, hclaims⟩ := hr caller hcaller
      obtain ⟨hissuer, hsubject, hroles, htenant⟩ := callerOf_ok hclaims
      refine ⟨token, claims, mem_of_bearer (htoken token rfl), hgenuine, hissuer, hsubject, hroles,
        fun u => ?_⟩
      rw [htenant, Option.bind_eq_some_iff]

/-- The layer passes a request on with an authenticated caller, or not at all. -/
theorem meets_requireAuth (henforcing : cfg.enforcing = true) {req : HttpRequest}
    (hpath : exempt req.path = false) {next : Option Caller → Outcome}
    {good : Outcome → Prop} (hrefused : good .unauthorized)
    (hnext : ∀ caller, Authenticated crates cfg fetched req caller → good (next (some caller)))
    {got : Option (Bytes × Nat)} {t : Nat} :
    Meets (provenance crates fetched) (fun _ _ out => good out) got t
      (requireAuth crates cfg req next) := by
  unfold requireAuth
  rw [hpath]
  refine Meets.bind ((meets_callerFrom henforcing req).mono fun _ _ r hr => ?_)
  cases r with
  | error e => exact hrefused
  | ok caller => exact hnext caller (hr caller rfl)

/-- What a router does with a request when authentication is enforced. -/
theorem meets_serve (henforcing : cfg.enforcing = true) (api : Api) (req : HttpRequest)
    {got : Option (Bytes × Nat)} {t : Nat} :
    Meets (provenance crates fetched) (fun _ _ out => ∀ e caller, out = .handler e caller →
      ∃ c, caller = some c ∧ Authenticated crates cfg fetched req c) got t
      (api.serve crates cfg req) := by
  unfold Api.serve
  split
  · rename_i template handlers hroute
    have hmatches := List.find?_some hroute
    have hpath := not_exempt_of_matches (List.mem_of_find?_eq_some hroute) hmatches
    refine meets_requireAuth henforcing hpath nofun fun c hc e caller hout => ?_
    split at hout
    · cases hout
      exact ⟨c, rfl, hc⟩
    · cases hout
  · split
    · split
      · exact nofun
      · exact nofun
    · rename_i hexempt
      exact meets_requireAuth henforcing (Bool.eq_false_iff.2 hexempt) nofun fun c hc => nofun

end

/-- Whenever a handler has got a request, the request was authenticated, and the
handler has got its caller. -/
theorem no_unauthenticated_execution {crates : Crates} {cfg : AuthConfig}
    (henforcing : cfg.enforcing = true)
    {σ : Sys CachedKeys Bytes (Api × HttpRequest) Outcome}
    (h : Timed.Reached (fun job => job.1.serve crates cfg job.2) (fun _ _ => True) σ) :
    ∀ reply ∈ σ.replies, ∀ e caller, reply.answer = .handler e caller →
      ∃ c, caller = some c ∧ Authenticated crates cfg σ.fetched reply.job.2 c := by
  have hreached := h.fetched.mono fun σ' l hl => provenance_allows crates hl.2
  have hholds := Timed.Reached.holds (fun job _ => meets_serve henforcing job.1 job.2) hreached
  intro reply hreply
  obtain ⟨-, -, hpost⟩ := hholds.replies reply hreply
  exact hpost

/-! ### A request with the sample token -/

def sampleRequest : HttpRequest :=
  ⟨.get, "/api/v1/tenants".toList,
    [("x-actor", textBytes "root".toList),
      ("authorization", textBytes ("Bearer ".toList ++ sampleToken))]⟩

def sampleRun : List (Label Bytes (Api × HttpRequest)) :=
  [.spawn 0 (.admin, sampleRequest), .act 0 .look, .act 0 (.serve loneBody), .act 0 .deliver,
    .act 0 .stamp, .act 0 .put, .act 0 .look, .act 0 (.clock (some 0)), .reply 0]

/-- A handler that runs for the subject of the sample token. -/
def Outcome.runsAs (subject : String) : Outcome → Bool
  | .handler _ caller => caller.any fun c => decide (c.subject = subject)
  | _ => false

theorem sampleRun_handled :
    (replay (fun job => job.1.serve publishingCrates sampleConfig job.2) (fun _ _ => true)
      sampleRun .init).any (fun σ => σ.replies.any fun reply => reply.answer.runsAs "ann") =
        true := by
  decide +kernel

theorem no_unauthenticated_execution_sample :
    ∃ σ : Sys CachedKeys Bytes (Api × HttpRequest) Outcome,
      replay (fun job => job.1.serve publishingCrates sampleConfig job.2) (fun _ _ => true)
        sampleRun .init = some σ ∧
      (∃ reply ∈ σ.replies, reply.answer.runsAs "ann" = true) ∧
      ∀ reply ∈ σ.replies, ∀ e caller, reply.answer = .handler e caller →
        ∃ c, caller = some c ∧
          Authenticated publishingCrates sampleConfig σ.fetched reply.job.2 c := by
  obtain ⟨σ, hreplay, hhandled⟩ := (Option.any_eq_true _ _).1 sampleRun_handled
  exact ⟨σ, hreplay, List.any_eq_true.1 hhandled,
    no_unauthenticated_execution rfl (Timed.Reached.replay .init (fun _ _ _ => trivial) hreplay)⟩

end OpenGroupware
