import OpenGroupware.Accountability
import OpenGroupware.Sesame
import OpenGroupware.Snapshots
import OpenGroupware.Thresholds
import OpenGroupware.Transactional.Progress

/-!
`admin-console`: the client of admin-api, and the pages that are made of what it
reads. A page shows what the database held while it was being made, whatever
runs at the same time; and behind an enforcing front door it shows nothing.
-/

namespace OpenGroupware

open Relational Transactional Serde

/-! ### What admin-api sends -/

def TenantStatus.text : TenantStatus → String
  | .active => "active"
  | .suspended => "suspended"
  | .terminated => "terminated"

def DomainStatus.text : DomainStatus → String
  | .pendingDns => "pending_dns"
  | .active => "active"
  | .suspended => "suspended"

def AccountStatus.text : AccountStatus → String
  | .pendingProvisioning => "pending_provisioning"
  | .active => "active"
  | .suspended => "suspended"
  | .deleted => "deleted"

section

variable (timeText : Timestamp → String)

def Tenant.json (t : Tenant) : Json :=
  .obj [("id", .str t.id.toText), ("slug", .str t.slug), ("name", .str t.name),
    ("plan", .str t.plan), ("status", .str t.status.text),
    ("created_at", .str (timeText t.createdAt))]

def Domain.json (m : Domain) : Json :=
  .obj [("id", .str m.id.toText), ("tenant_id", .str m.tenantId.toText), ("fqdn", .str m.fqdn),
    ("status", .str m.status.text), ("created_at", .str (timeText m.createdAt))]

def Account.json (a : Account) : Json :=
  .obj [("id", .str a.id.toText), ("tenant_id", .str a.tenantId.toText),
    ("domain_id", .str a.domainId.toText), ("email", .str a.email),
    ("display_name", .str a.displayName), ("quota_mb", .int a.quotaMb),
    ("status", .str a.status.text), ("created_at", .str (timeText a.createdAt))]

def AbusePolicy.json (p : AbusePolicy) : Json :=
  .obj [("tenant_id", .str p.tenantId.toText), ("reject", .ofF64 p.reject),
    ("add_header", .ofF64 p.addHeader), ("greylist", .ofF64 p.greylist),
    ("updated_at", .str (timeText p.updatedAt))]

/-- The bodies of admin-api. The others are of abuse-api. -/
def Body.json : Body → Option Json
  | .error message => some (.obj [("error", .str message)])
  | .tenant t => some (t.json timeText)
  | .tenants ts => some (.arr (ts.map (Tenant.json timeText)))
  | .domain m => some (m.json timeText)
  | .domains ms => some (.arr (ms.map (Domain.json timeText)))
  | .account a => some (a.json timeText)
  | .accounts as => some (.arr (as.map (Account.json timeText)))
  | .policy p => some (p.json timeText)
  | _ => none

end

/-! ### What the client reads -/

structure TenantDto where
  id : Uuid
  slug : String
  name : String
  plan : String
  status : String

structure DomainDto where
  fqdn : String
  status : String

structure AccountDto where
  email : String
  displayName : String
  quotaMb : Int
  status : String

structure PolicyDto where
  reject : F64
  addHeader : F64
  greylist : F64

/-- Code of other packages that the client and the server are written with. -/
structure ConsoleCrates extends Crates where
  /-- How a point in time is written. -/
  timeText : Timestamp → String
  toVec : Json → Bytes
  /-- The float that is read where this one was written. -/
  reread : ℚ → ℚ
  nearest : Int → F64
  /-- A status code with its reason. -/
  statusText : Nat → String
  percentDecode : List Char → Option String

section

variable (crates : ConsoleCrates)

def TenantDto.deserialize (v : Json) : Option TenantDto := do
  let given ← fields ["id", "slug", "name", "plan", "status"] v
  let id ← required given "id" fun v => (string v).bind crates.parseUuid
  let slug ← required given "slug" string
  let name ← required given "name" string
  let plan ← required given "plan" string
  let status ← required given "status" string
  return { id, slug, name, plan, status }

def DomainDto.deserialize (v : Json) : Option DomainDto := do
  let given ← fields ["fqdn", "status"] v
  let fqdn ← required given "fqdn" string
  let status ← required given "status" string
  return { fqdn, status }

def AccountDto.deserialize (v : Json) : Option AccountDto := do
  let given ← fields ["email", "display_name", "quota_mb", "status"] v
  let email ← required given "email" string
  let displayName ← required given "display_name" string
  let quotaMb ← required given "quota_mb" i32
  let status ← required given "status" string
  return { email, displayName, quotaMb, status }

def PolicyDto.deserialize (v : Json) : Option PolicyDto := do
  let given ← fields ["reject", "add_header", "greylist"] v
  let reject ← required given "reject" (f64 crates.nearest)
  let addHeader ← required given "add_header" (f64 crates.nearest)
  let greylist ← required given "greylist" (f64 crates.nearest)
  return { reject, addHeader, greylist }

/-! ### The client -/

/-- What a `GET` comes to. An answer has a body unless the connection broke off. -/
inductive Fetch
  | failed (reason : String)
  | answered (status : Nat) (body : Except String Bytes)

/-- `get_json`, once its request has come to something. -/
def getJson {α : Type} (de : Json → Option α) (path : String) : Fetch → Except String α
  | .failed reason => .error ("request to " ++ path ++ " failed: " ++ reason)
  | .answered status body =>
      if success status then
        match body with
        | .error reason => .error ("decoding " ++ path ++ ": " ++ reason)
        | .ok body =>
            match (crates.parseJson body).bind de with
            | some a => .ok a
            | none => .error ("decoding " ++ path ++ ": " ++ crates.jsonError body)
      else .error (path ++ " returned " ++ crates.statusText status)

theorem getJson_ok {α : Type} {de : Json → Option α} {v v' : Json} {a : α}
    (hread : crates.parseJson (crates.toVec v) = some v') (hde : de v' = some a) (path : String) :
    getJson crates de path (.answered 200 (.ok (crates.toVec v))) = .ok a := by
  have hsome : (crates.parseJson (crates.toVec v)).bind de = some a := by
    rw [hread, Option.bind_some, hde]
  have hsuccess : success 200 = true := rfl
  simp only [getJson, hsuccess, if_true, hsome]

end

def tenantsPath : String := "/api/v1/tenants"

/-- The path of something that a tenant has. -/
def resourcePath (tenant : Uuid) (resource : String) : String :=
  "/api/v1/tenants/" ++ tenant.toText ++ "/" ++ resource

def domainsPath (tenant : Uuid) : String := resourcePath tenant "domains"

def accountsPath (tenant : Uuid) : String := resourcePath tenant "accounts"

def policyPath (tenant : Uuid) : String := resourcePath tenant "policy"

/-! ### Views -/

/-- A status pill. -/
structure Badge where
  className : String
  text : String
deriving DecidableEq

def badge (status : String) : Badge where
  className :=
    if status = "active" then "badge ok"
    else if status = "suspended" ∨ "pending".toList <+: status.toList then "badge warn"
    else "badge"
  text := status

/-- The rows of a table, or what stands there when it has none. -/
inductive Rows (α : Type)
  | rows (first : α) (rest : List α)
  | empty (text : String)
deriving DecidableEq

def Rows.of {α : Type} (text : String) : List α → Rows α
  | [] => .empty text
  | a :: as => .rows a as

structure TenantLine where
  href : String
  slug : String
  name : String
  plan : String
  status : Badge
deriving DecidableEq

structure AccountLine where
  email : String
  displayName : String
  quota : String
  status : Badge
deriving DecidableEq

inductive View
  | tenants (rows : Rows TenantLine)
  | detail (initial name subtitle : String) (domains : Rows (String × Badge))
      (accounts : Rows AccountLine) (greylist addHeader reject : String)
  | error (title message : String)
deriving DecidableEq

/-- A document: its title and what is in it. -/
structure Page where
  title : String
  view : View
deriving DecidableEq

def tenantsView (tenants : List TenantDto) : View :=
  .tenants (.of "No tenants yet." (tenants.map fun t =>
    { href := "/tenants/" ++ t.id.toText, slug := t.slug, name := t.name, plan := t.plan
      status := badge t.status }))

def detailView (t : TenantDto) (domains : List DomainDto) (accounts : List AccountDto)
    (policy : PolicyDto) : View :=
  .detail
    (match t.name.toList with
      | [] => "?"
      | c :: _ => String.ofList [c.toUpper])
    t.name
    (t.slug ++ " · " ++ t.plan ++ " · " ++ t.status)
    (.of "No domains." (domains.map fun m => (m.fqdn, badge m.status)))
    (.of "No accounts." (accounts.map fun a =>
      { email := a.email, displayName := a.displayName, quota := toString a.quotaMb ++ " MB"
        status := badge a.status }))
    policy.greylist.toFixed1 policy.addHeader.toFixed1 policy.reject.toFixed1

def page (title : String) (view : View) : Page := ⟨title ++ " · opengroupware admin", view⟩

def renderTenantsPage (tenants : List TenantDto) : Page := page "Tenants" (tenantsView tenants)

def renderDetailPage (tenant : TenantDto) (domains : List DomainDto) (accounts : List AccountDto)
    (policy : PolicyDto) : Page :=
  page tenant.name (detailView tenant domains accounts policy)

def renderErrorPage (title message : String) : Page := page title (.error title message)

/-! ### Pages -/

/-- A program that reads from admin-api. -/
inductive Client (α : Type)
  | ret (a : α)
  | get (path : String) (k : Fetch → Client α)
  /-- `tokio::join!`: the three requests are under way at the same time. -/
  | join (path₁ path₂ path₃ : String) (k : Fetch → Fetch → Fetch → Client α)

section

variable (crates : ConsoleCrates)

def tenantsPage : Client Page :=
  .get tenantsPath fun fetched =>
    match getJson crates (vec (TenantDto.deserialize crates)) tenantsPath fetched with
    | .ok tenants => .ret (renderTenantsPage tenants)
    | .error e => .ret (renderErrorPage "Tenants" e)

/-- Domains and accounts that could not be read are left out. -/
def tenantDetailPage (id : Uuid) : Client Page :=
  .get tenantsPath fun fetched =>
    match getJson crates (vec (TenantDto.deserialize crates)) tenantsPath fetched with
    | .error e => .ret (renderErrorPage "Tenant" e)
    | .ok tenants =>
        match tenants.find? fun t => decide (t.id = id) with
        | none => .ret (renderErrorPage "Tenant not found" "No tenant with that id.")
        | some tenant =>
            .join (domainsPath id) (accountsPath id) (policyPath id)
              fun domains accounts policy =>
                match getJson crates (PolicyDto.deserialize crates) (policyPath id) policy with
                | .error e => .ret (renderErrorPage tenant.name e)
                | .ok policy =>
                    let domains := getJson crates (vec DomainDto.deserialize) (domainsPath id)
                      domains
                    let accounts := getJson crates (vec AccountDto.deserialize) (accountsPath id)
                      accounts
                    .ret (renderDetailPage tenant (domains.toOption.getD [])
                      (accounts.toOption.getD []) policy)

end

/-! ### Requests of the console -/

/-- A `GET` as it arrives; the console has no token to send. -/
def consoleRequest (actor host path : String) : HttpRequest :=
  ⟨.get, path.toList,
    [("x-actor", textBytes actor.toList), ("accept", textBytes "*/*".toList),
      ("host", textBytes host.toList)]⟩

theorem consoleRequest_path (actor host path : String) :
    (consoleRequest actor host path).path = path.toList := rfl

theorem not_mem_hexDigits {c : Char} (hc : ∀ a < 16, Nat.digitChar a ≠ c) (n v : Nat) :
    c ∉ hexDigits n v := by
  induction n generalizing v with
  | zero => exact List.not_mem_nil
  | succ n ih =>
      rw [hexDigits, List.mem_append, List.mem_singleton]
      rintro (h | h)
      · exact ih _ h
      · exact hc _ (Nat.mod_lt _ (by decide)) h.symm

theorem Uuid.not_mem_toText {c : Char} (hc : ∀ a < 16, Nat.digitChar a ≠ c) (hdash : c ≠ '-')
    (u : Uuid) : c ∉ u.toText.toList := by
  simp [Uuid.toText, not_mem_hexDigits hc, hdash]

theorem splitOn_path {tenant resource : String} (htenant : '/' ∉ tenant.toList)
    (h : '/' ∉ resource.toList) :
    ("/api/v1/tenants/" ++ tenant ++ "/" ++ resource).toList.splitOn '/' =
      [[], "api".toList, "v1".toList, "tenants".toList, tenant.toList, resource.toList] := by
  have hpath : ("/api/v1/tenants/" ++ tenant ++ "/" ++ resource).toList =
      ['/'].intercalate [[], "api".toList, "v1".toList, "tenants".toList, tenant.toList,
        resource.toList] := by
    simp [String.toList_append, List.intercalate]
  rw [hpath]
  exact List.splitOn_intercalate '/' (by simp [htenant, h]) (List.cons_ne_nil _ _)

theorem splitOn_resourcePath (u : Uuid) {resource : String} (h : '/' ∉ resource.toList) :
    (resourcePath u resource).toList.splitOn '/' =
      [[], "api".toList, "v1".toList, "tenants".toList, u.toText.toList, resource.toList] :=
  splitOn_path (u.not_mem_toText (by decide) (by decide)) h

section

variable {path cs : List Char} {resource : String}

theorem not_matches_tenants (h : path.splitOn '/' =
      [[], "api".toList, "v1".toList, "tenants".toList, cs, resource.toList]) :
    pathMatches tenants path = false := by
  rw [pathMatches, h]
  rfl

theorem matches_resource (h : path.splitOn '/' =
      [[], "api".toList, "v1".toList, "tenants".toList, cs, resource.toList]) (hcs : cs ≠ [])
    (name s : String) : pathMatches (tenants ++ [.param name, .text s]) path =
      decide (resource.toList = s.toList) := by
  rw [pathMatches, h]
  simp [tenants, matchSegments, Segment.matches, hcs]

/-- What tenants have in admin-api, with the handlers. -/
def resources : List (String × List (Method × Endpoint)) :=
  [("domains", [(.post, .createDomain), (.get, .listDomains)]),
    ("accounts", [(.post, .createAccount), (.get, .listAccounts)]),
    ("policy", [(.get, .getPolicy), (.put, .putPolicy)])]

/-- The router takes a request for a resource to its handlers. -/
theorem routed_resource (h : path.splitOn '/' =
      [[], "api".toList, "v1".toList, "tenants".toList, cs, resource.toList]) (hcs : cs ≠ [])
    {handlers : List (Method × Endpoint)} (hroute : (resource, handlers) ∈ resources) :
    Api.admin.routed path = some (tenants ++ [.param "tenant_id", .text resource], handlers) ∧
      Api.admin.captured path = [cs] := by
  have hrouted : Api.admin.routed path =
      some (tenants ++ [.param "tenant_id", .text resource], handlers) := by
    simp only [Api.routed, Api.routes, List.find?_cons, not_matches_tenants h,
      matches_resource h hcs]
    simp only [resources, List.mem_cons, Prod.mk.injEq, List.not_mem_nil, or_false] at hroute
    rcases hroute with ⟨rfl, rfl⟩ | ⟨rfl, rfl⟩ | ⟨rfl, rfl⟩ <;> simp
  refine ⟨hrouted, ?_⟩
  rw [Api.captured, hrouted, h]
  rfl

end

/-! ### Runs of a page -/

/-- What a client is told that gets to no handler, or whose path is none of the
handler's. -/
inductive Outcome.Refuses : Outcome → Nat → Prop
  | unauthorized : Refuses .unauthorized 401
  | notFound : Refuses .notFound 404
  | methodNotAllowed : Refuses .methodNotAllowed 405
  | path {e caller} : Refuses (.handler e caller) 400

theorem Outcome.Refuses.not_success {out : Outcome} {status : Nat} (h : out.Refuses status) :
    success status = false := by
  cases h <;> rfl

section

variable (crates : ConsoleCrates) (cfg : Api → AuthConfig) (actor host : String) (sesame : Bool)
  (answers : ProvisionUser → Except ProviderError Uuid → Prop)

/-- What a `GET` may come to between two states: it gets lost, the front door
turns it away, or its handler has run and answered it. The answer may break
off. -/
inductive Fetched (σ σ' : Stack) (path : String) : Fetch → Prop
  | lost {reason} : Fetched σ σ' path (.failed reason)
  | refused {new reply status body}
      (hnew : (σ'.front .admin).replies = (σ.front .admin).replies ++ new) (hreply : reply ∈ new)
      (hjob : reply.job = consoleRequest actor host path)
      (houtcome : reply.answer.Refuses status) : Fetched σ σ' path (.answered status body)
  | served {new reply route caller e r v body}
      (hnew : (σ'.front .admin).replies = (σ.front .admin).replies ++ new) (hreply : reply ∈ new)
      (hjob : reply.job = consoleRequest actor host path)
      (houtcome : reply.answer = .handler route.endpoint (some caller))
      (hroute : route.ExtractedFrom crates.toCrates crates.percentDecode .admin reply.job)
      (he : e ∈ σ'.back.replies) (hpid : e.pid ∉ σ.back.started)
      (hrequest : e.request = .http caller route) (hanswer : e.answer = .http r)
      (hv : r.body.json crates.timeText = some v)
      (hbody : body = .ok (crates.toVec v) ∨ ∃ reason, body = .error reason) :
      Fetched σ σ' path (.answered r.status body)

/-- A program of the console runs to its end beside everything else, with what
its requests come to. -/
inductive Client.Runs {α : Type} :
    Client α → Stack → List (String × Fetch) → Stack → α → Prop
  | ret {σ a} : Runs (.ret a) σ [] σ a
  | get {σ σ₁ σ' path f fs k a} :
      Stack.Run crates.toCrates cfg crates.percentDecode sesame answers σ σ₁ →
      Fetched crates actor host σ σ₁ path f → Runs (k f) σ₁ fs σ' a →
      Runs (.get path k) σ ((path, f) :: fs) σ' a
  | join {σ σ₁ σ' path₁ path₂ path₃ f₁ f₂ f₃ fs k a} :
      Stack.Run crates.toCrates cfg crates.percentDecode sesame answers σ σ₁ →
      Fetched crates actor host σ σ₁ path₁ f₁ → Fetched crates actor host σ σ₁ path₂ f₂ →
      Fetched crates actor host σ σ₁ path₃ f₃ → Runs (k f₁ f₂ f₃) σ₁ fs σ' a →
      Runs (.join path₁ path₂ path₃ k) σ ((path₁, f₁) :: (path₂, f₂) :: (path₃, f₃) :: fs) σ' a

end

/-! ### Rows read back -/

mutual

/-- What is read where a document was written: floats may change. -/
def Json.rereadBy (f : ℚ → ℚ) : Json → Json
  | .num q => .num (f q)
  | .arr items => .arr (Json.rereadItems f items)
  | .obj members => .obj (Json.rereadMembers f members)
  | v => v

def Json.rereadItems (f : ℚ → ℚ) : List Json → List Json
  | [] => []
  | v :: rest => v.rereadBy f :: Json.rereadItems f rest

def Json.rereadMembers (f : ℚ → ℚ) : List (String × Json) → List (String × Json)
  | [] => []
  | (name, v) :: rest => (name, v.rereadBy f) :: Json.rereadMembers f rest

end

/-- The documents that admin-api has answered with. -/
def State.sent (timeText : Timestamp → String) (σ : State) : Set Json :=
  { v | ∃ e ∈ σ.replies, ∃ r, e.answer = .http r ∧ r.body.json timeText = some v }

/-- The packages read back what they have written, up to the order of members
and the last digits of floats. -/
structure ConsoleCrates.Conveys (crates : ConsoleCrates) (documents : Set Json) : Prop where
  uuid : ∀ u : Uuid, crates.parseUuid u.toText = some u
  plain : ∀ u : Uuid, crates.percentDecode u.toText.toList = some u.toText
  json : ∀ v ∈ documents, ∃ v', crates.parseJson (crates.toVec v) = some v' ∧
    Same (v.rereadBy crates.reread) v'

def Tenant.dto (t : Tenant) : TenantDto := ⟨t.id, t.slug, t.name, t.plan, t.status.text⟩

def Domain.dto (m : Domain) : DomainDto := ⟨m.fqdn, m.status.text⟩

def Account.dto (a : Account) : AccountDto := ⟨a.email, a.displayName, a.quotaMb, a.status.text⟩

def F64.rereadBy (f : ℚ → ℚ) : F64 → F64
  | .fin q => .fin (f q)
  | x => x

def AbusePolicy.dto (f : ℚ → ℚ) (p : AbusePolicy) : PolicyDto :=
  ⟨p.reject.rereadBy f, p.addHeader.rereadBy f, p.greylist.rereadBy f⟩

section

variable {crates : ConsoleCrates}

theorem tenant_read (huuid : ∀ u : Uuid, crates.parseUuid u.toText = some u) {t : Tenant} {v : Json}
    (h : Same (t.json crates.timeText) v) : TenantDto.deserialize crates v = some t.dto := by
  obtain ⟨given, hgiven, hsame⟩ := fields_same (by simp) h ["id", "slug", "name", "plan", "status"]
  obtain ⟨id, hid, hstr⟩ := exists_lookup (hsame "id" (by decide)) rfl
  cases hstr
  obtain ⟨slug, hslug, hstr⟩ := exists_lookup (hsame "slug" (by decide)) rfl
  cases hstr
  obtain ⟨name, hname, hstr⟩ := exists_lookup (hsame "name" (by decide)) rfl
  cases hstr
  obtain ⟨plan, hplan, hstr⟩ := exists_lookup (hsame "plan" (by decide)) rfl
  cases hstr
  obtain ⟨status, hstatus, hstr⟩ := exists_lookup (hsame "status" (by decide)) rfl
  cases hstr
  simp only [TenantDto.deserialize, hgiven, bind, Option.bind_some, required, hid, hslug, hname,
    hplan, hstatus, string, huuid]
  rfl

theorem domain_read {m : Domain} {v : Json} (h : Same (m.json crates.timeText) v) :
    DomainDto.deserialize v = some m.dto := by
  obtain ⟨given, hgiven, hsame⟩ := fields_same (by simp) h ["fqdn", "status"]
  obtain ⟨fqdn, hfqdn, hstr⟩ := exists_lookup (hsame "fqdn" (by decide)) rfl
  cases hstr
  obtain ⟨status, hstatus, hstr⟩ := exists_lookup (hsame "status" (by decide)) rfl
  cases hstr
  simp only [DomainDto.deserialize, hgiven, bind, Option.bind_some, required, hfqdn, hstatus,
    string]
  rfl

theorem account_read {a : Account} (hquota : quotaCheck a.quotaMb = true) {v : Json}
    (h : Same (a.json crates.timeText) v) : AccountDto.deserialize v = some a.dto := by
  obtain ⟨given, hgiven, hsame⟩ :=
    fields_same (by simp) h ["email", "display_name", "quota_mb", "status"]
  obtain ⟨email, hemail, hstr⟩ := exists_lookup (hsame "email" (by decide)) rfl
  cases hstr
  obtain ⟨displayName, hdisplayName, hstr⟩ := exists_lookup (hsame "display_name" (by decide)) rfl
  cases hstr
  obtain ⟨quotaMb, hquotaMb, hint⟩ := exists_lookup (hsame "quota_mb" (by decide)) rfl
  cases hint
  obtain ⟨status, hstatus, hstr⟩ := exists_lookup (hsame "status" (by decide)) rfl
  cases hstr
  have hrange : -2 ^ 31 ≤ a.quotaMb ∧ a.quotaMb < 2 ^ 31 := by
    have hbounds := of_decide_eq_true hquota
    omega
  simp only [AccountDto.deserialize, hgiven, bind, Option.bind_some, required, hemail,
    hdisplayName, hquotaMb, hstatus, string, i32, if_pos hrange]
  rfl

theorem policy_read {p : AbusePolicy} (hp : p.Ordered) {v : Json}
    (h : Same ((p.json crates.timeText).rereadBy crates.reread) v) :
    PolicyDto.deserialize crates v = some (p.dto crates.reread) := by
  obtain ⟨reject, addHeader, greylist, hr, ha, hg, -⟩ := hp
  rw [AbusePolicy.json, hr, ha, hg] at h
  obtain ⟨given, hgiven, hsame⟩ :=
    fields_same (by simp [Json.rereadMembers]) h ["reject", "add_header", "greylist"]
  obtain ⟨x, hx, hnum⟩ := exists_lookup (hsame "reject" (by decide)) rfl
  cases hnum
  obtain ⟨y, hy, hnum⟩ := exists_lookup (hsame "add_header" (by decide)) rfl
  cases hnum
  obtain ⟨z, hz, hnum⟩ := exists_lookup (hsame "greylist" (by decide)) rfl
  cases hnum
  simp only [PolicyDto.deserialize, hgiven, bind, Option.bind_some, required, hx, hy, hz, f64,
    AbusePolicy.dto, hr, ha, hg]
  rfl

/-- Lists are read back element by element. -/
theorem vec_read {α β : Type} {f : α → Json} {g : α → β} {de : Json → Option β} {as : List α}
    (hread : ∀ a ∈ as, ∀ v, Same (f a) v → de v = some (g a)) {v : Json}
    (h : Same (.arr (as.map f)) v) : vec de v = some (as.map g) := by
  cases h with
  | @arr _ vs hvs =>
      change elements de vs = _
      rw [elements_eq_some]
      induction as generalizing vs with
      | nil =>
          cases hvs
          rfl
      | cons a as ih =>
          cases hvs with
          | cons hv hrest =>
              rw [List.map_cons, hread a List.mem_cons_self _ hv,
                ih (fun a ha => hread a (List.mem_cons_of_mem _ ha)) hrest]
              rfl

theorem rereadItems_map {α : Type} {f : ℚ → ℚ} {g : α → Json} (h : ∀ a, (g a).rereadBy f = g a)
    (as : List α) : Json.rereadItems f (as.map g) = as.map g := by
  induction as with
  | nil => rfl
  | cons a as ih => rw [List.map_cons, Json.rereadItems, h, ih]

end

/-! ### What is read -/

/-- No document has come, and why: never because of what is in one. -/
inductive Fetch.Unread (crates : ConsoleCrates) (path : String) : Fetch → String → Prop
  | lost {reason} :
      Unread crates path (.failed reason) ("request to " ++ path ++ " failed: " ++ reason)
  | refused {status body} (h : success status = false) :
      Unread crates path (.answered status body)
        (path ++ " returned " ++ crates.statusText status)
  | broken {status reason} (h : success status = true) :
      Unread crates path (.answered status (.error reason)) ("decoding " ++ path ++ ": " ++ reason)

theorem Fetch.Unread.getJson_eq {crates : ConsoleCrates} {path : String} {f : Fetch} {e : String}
    (h : f.Unread crates path e) {α : Type} (de : Json → Option α) :
    getJson crates de path f = .error e := by
  cases h with
  | lost => rfl
  | refused h | broken h =>
      simp only [getJson, h]
      rfl

section

variable {crates : ConsoleCrates} {cfg : Api → AuthConfig} {actor host : String} {sesame : Bool}
  {answers : ProvisionUser → Except ProviderError Uuid → Prop} {σ σ' : Stack}
  {documents : Set Json}

theorem Leads.sent {σ₀ σ₁ : State} (h : Leads sesame answers σ₀ σ₁)
    (timeText : Timestamp → String) : σ₀.sent timeText ⊆ σ₁.sent timeText := by
  obtain ⟨ls, hrun⟩ := h
  rintro v ⟨e, he, hv⟩
  exact ⟨e, hrun.replies_subset he, hv⟩

theorem Stack.leads {percentDecode : List Char → Option String} {crates : Crates}
    (h : Stack.Run crates cfg percentDecode sesame answers σ σ') :
    Leads sesame answers σ.back σ'.back := by
  induction h with
  | refl => exact ⟨[], .nil⟩
  | tail _ hstep ih =>
      cases hstep with
      | front _ => exact ih
      | back hstep =>
          obtain ⟨ls, hrun⟩ := ih
          exact ⟨_, hrun.snoc (hstep.mono fun _ _ => trivial)⟩

theorem Client.Runs.leads {α : Type} {client : Client α} {fs : List (String × Fetch)} {a : α}
    (h : client.Runs crates cfg actor host sesame answers σ fs σ' a) :
    Leads sesame answers σ.back σ'.back := by
  induction h with
  | ret => exact ⟨[], .nil⟩
  | get hrun _ _ ih => exact (Stack.leads hrun).trans ih
  | join hrun _ _ _ _ ih => exact (Stack.leads hrun).trans ih

theorem reads_of_get {api : Api} {req : HttpRequest} {route : Route}
    (h : api.endpoint req = some route.endpoint) (hget : req.method = .get) :
    route.reads = true := by
  cases hreads : route.reads with
  | true => rfl
  | false =>
      obtain ⟨action, haction⟩ : ∃ action, action ∈ route.endpoint.actions := by
        cases route <;> first | exact ⟨_, List.mem_cons_self⟩ | cases hreads
      rcases method_of_endpoint h haction with hmethod | hmethod <;> rw [hget] at hmethod <;>
        cases hmethod

/-- What has been fetched is a snapshot of what its path names, or nothing. -/
theorem Fetched.shown (h : Stack.Reached crates.toCrates cfg crates.percentDecode sesame answers σ)
    (hrun : Stack.Run crates.toCrates cfg crates.percentDecode sesame answers σ σ')
    {path : String} {f : Fetch} (hf : Fetched crates actor host σ σ' path f) :
    (∃ e, f.Unread crates path e) ∨
    ∃ (route : Route) (body : Body) (ρ : State) (o : Oracle) (v : Json),
      Api.admin.endpoint (consoleRequest actor host path) = some route.endpoint ∧
      route.ExtractedFrom crates.toCrates crates.percentDecode .admin
        (consoleRequest actor host path) ∧
      Leads sesame answers σ.back ρ ∧ Leads sesame answers ρ σ'.back ∧
      route.shows ρ.store o = some body ∧ body.json crates.timeText = some v ∧
      v ∈ σ'.back.sent crates.timeText ∧ f = .answered 200 (.ok (crates.toVec v)) := by
  cases hf with
  | lost => exact .inl ⟨_, .lost⟩
  | refused _ _ _ houtcome => exact .inl ⟨_, .refused houtcome.not_success⟩
  | @served new reply route caller e r v body hnew hreply hjob houtcome hroute he hpid hrequest
      hanswer hv hbody =>
      have hmem : reply ∈ (σ'.front .admin).replies := by
        rw [hnew]
        exact List.mem_append_right _ hreply
      have hendpoint := (Stack.handled (h.trans hrun) hmem houtcome).1
      rw [hjob] at hendpoint hroute
      have hreads : route.reads = true := reads_of_get hendpoint rfl
      have hσ : Reached sesame answers σ.back := h.parts.2.mono fun _ _ => trivial
      obtain ⟨ls, hback⟩ := Stack.leads hrun
      obtain ⟨d, -, -, hret⟩ :=
        (reached_started sesame answers).replies_ret (hσ.run hback) e he
      rw [hrequest, hanswer] at hret
      generalize e.commits = cs at hret
      cases hret with
      | @refused _ _ _ _ error _ =>
          have hstatus := status_intoResponse error
          exact .inl ⟨_, .refused (decide_eq_false (by omega))⟩
      | served hserved =>
          obtain ⟨shown, rfl⟩ : ∃ shown, r = .ok shown := by
            cases hserved <;> first | exact ⟨_, rfl⟩ | cases hreads
          rcases hbody with rfl | ⟨reason, rfl⟩
          · obtain ⟨d, o, ⟨ls₁, ls₂, ρ, P, -, hrun₁, hrun₂, -, rfl⟩, hshows⟩ :=
              shown_passed hσ hback he hpid hrequest hreads hanswer
            exact .inr ⟨route, shown, ρ, o, v, hendpoint, hroute, ⟨ls₁, hrun₁⟩, ⟨ls₂, hrun₂⟩,
              hshows, hv, ⟨e, he, _, hanswer, hv⟩, rfl⟩
          · exact .inl ⟨_, .broken rfl⟩

/-- What has been read is what a handler has shown, or nothing. -/
theorem Fetched.read (hcrates : crates.Conveys documents)
    (hsent : σ'.back.sent crates.timeText ⊆ documents)
    (h : Stack.Reached crates.toCrates cfg crates.percentDecode sesame answers σ)
    (hrun : Stack.Run crates.toCrates cfg crates.percentDecode sesame answers σ σ')
    {path : String} {f : Fetch} (hf : Fetched crates actor host σ σ' path f) {β : Type}
    {de : Json → Option β} {P : State → β → Prop}
    (hread : ∀ {route : Route} {body : Body} {ρ : State} {o : Oracle} {v v' : Json},
      Api.admin.endpoint (consoleRequest actor host path) = some route.endpoint →
      route.ExtractedFrom crates.toCrates crates.percentDecode .admin
        (consoleRequest actor host path) →
      Leads sesame answers σ.back ρ → route.shows ρ.store o = some body →
      body.json crates.timeText = some v → Same (v.rereadBy crates.reread) v' →
      ∃ b, de v' = some b ∧ P ρ b) :
    (∃ e, f.Unread crates path e ∧ getJson crates de path f = .error e) ∨
    ∃ ρ b, Leads sesame answers σ.back ρ ∧ Leads sesame answers ρ σ'.back ∧ P ρ b ∧
      getJson crates de path f = .ok b := by
  rcases hf.shown h hrun with ⟨e, he⟩ | ⟨route, body, ρ, o, v, hendpoint, hextracted, hρ, hρ',
    hshows, hbody, hv, rfl⟩
  · exact .inl ⟨e, he, he.getJson_eq de⟩
  · obtain ⟨v', hv', hsame⟩ := hcrates.json v (hsent hv)
    obtain ⟨b, hb, hP⟩ := hread hendpoint hextracted hρ hshows hbody hsame
    exact .inr ⟨ρ, b, hρ, hρ', hP, getJson_ok crates hv' hb path⟩

/-- The tenants that have been read. -/
theorem Fetched.tenants (hcrates : crates.Conveys documents)
    (hsent : σ'.back.sent crates.timeText ⊆ documents)
    (h : Stack.Reached crates.toCrates cfg crates.percentDecode sesame answers σ)
    (hrun : Stack.Run crates.toCrates cfg crates.percentDecode sesame answers σ σ') {f : Fetch}
    (hf : Fetched crates actor host σ σ' tenantsPath f) :
    (∃ e, f.Unread crates tenantsPath e ∧
      getJson crates (vec (TenantDto.deserialize crates)) tenantsPath f = .error e) ∨
    ∃ ρ ts, Leads sesame answers σ.back ρ ∧ Leads sesame answers ρ σ'.back ∧
      (∃ o, ts = (Sql.orderBy o Tenant.createdAt Tenant.id ρ.store.tenants.rows).map
        Tenant.dto) ∧
      getJson crates (vec (TenantDto.deserialize crates)) tenantsPath f = .ok ts := by
  refine hf.read hcrates hsent h hrun ?_
  intro route body ρ o v v' hendpoint _ _ hshows hbody hsame
  have hpath : Api.admin.endpoint (consoleRequest actor host tenantsPath) =
      some .listTenants := by
    change Api.admin.endpoint ⟨.get, tenantsPath.toList, []⟩ = some .listTenants
    decide +kernel
  obtain rfl : route = .listTenants := by
    rw [hpath] at hendpoint
    cases route <;> first | rfl | cases hendpoint
  obtain rfl := Option.some.inj hshows
  obtain rfl := Option.some.inj hbody
  rw [Json.rereadBy, rereadItems_map fun _ => rfl] at hsame
  exact ⟨_, vec_read (fun t _ _ => tenant_read hcrates.uuid) hsame, o, rfl⟩

/-- A request for a resource of a tenant is about that tenant. -/
theorem route_of_resource (hcrates : crates.Conveys documents) {u : Uuid} {resource : String}
    {handlers : List (Method × Endpoint)} {route : Route}
    (hresource : (resource, handlers) ∈ resources)
    (hendpoint : Api.admin.endpoint (consoleRequest actor host (resourcePath u resource)) =
      some route.endpoint)
    (hroute : route.ExtractedFrom crates.toCrates crates.percentDecode .admin
      (consoleRequest actor host (resourcePath u resource))) :
    handlers.lookup .get = some route.endpoint ∧ route.ids = [u] := by
  have hslash : '/' ∉ resource.toList := by
    have hall : ∀ r ∈ resources, '/' ∉ r.1.toList := by decide +kernel
    exact hall _ hresource
  have hne : u.toText.toList ≠ [] := fun h => u.toText_ne_empty (String.toList_eq_nil_iff.1 h)
  obtain ⟨hrouted, hcaptured⟩ := routed_resource (splitOn_resourcePath u hslash) hne hresource
  constructor
  · rw [Api.endpoint, consoleRequest_path, hrouted] at hendpoint
    exact hendpoint
  · rw [Route.ExtractedFrom, consoleRequest_path, hcaptured, List.mapM_cons, hcrates.plain,
      Option.bind_some, hcrates.uuid] at hroute
    exact (Option.some.inj hroute).symm

theorem Fetched.domains (hcrates : crates.Conveys documents)
    (hsent : σ'.back.sent crates.timeText ⊆ documents)
    (h : Stack.Reached crates.toCrates cfg crates.percentDecode sesame answers σ)
    (hrun : Stack.Run crates.toCrates cfg crates.percentDecode sesame answers σ σ') {f : Fetch}
    {u : Uuid} (hf : Fetched crates actor host σ σ' (domainsPath u) f) :
    (∃ e, f.Unread crates (domainsPath u) e ∧
      getJson crates (vec DomainDto.deserialize) (domainsPath u) f = .error e) ∨
    ∃ ρ ms, Leads sesame answers σ.back ρ ∧ Leads sesame answers ρ σ'.back ∧
      (∃ o, ms = (Sql.orderBy o Domain.createdAt Domain.id
        (ρ.store.domains.rows.filter fun m => decide (m.tenantId = u))).map Domain.dto) ∧
      getJson crates (vec DomainDto.deserialize) (domainsPath u) f = .ok ms := by
  refine hf.read hcrates hsent h hrun ?_
  intro route body ρ o v v' hendpoint hextracted _ hshows hbody hsame
  obtain ⟨hlookup, hids⟩ := route_of_resource hcrates (.head _) hendpoint hextracted
  obtain rfl : route = .listDomains u := by
    cases route <;> first | (cases hids; rfl) | cases hlookup
  obtain rfl := Option.some.inj hshows
  obtain rfl := Option.some.inj hbody
  rw [Json.rereadBy, rereadItems_map fun _ => rfl] at hsame
  exact ⟨_, vec_read (fun m _ _ => domain_read) hsame, o, rfl⟩

theorem Fetched.accounts (hcrates : crates.Conveys documents)
    (hsent : σ'.back.sent crates.timeText ⊆ documents)
    (h : Stack.Reached crates.toCrates cfg crates.percentDecode sesame answers σ)
    (hrun : Stack.Run crates.toCrates cfg crates.percentDecode sesame answers σ σ') {f : Fetch}
    {u : Uuid} (hf : Fetched crates actor host σ σ' (accountsPath u) f) :
    (∃ e, f.Unread crates (accountsPath u) e ∧
      getJson crates (vec AccountDto.deserialize) (accountsPath u) f = .error e) ∨
    ∃ ρ as, Leads sesame answers σ.back ρ ∧ Leads sesame answers ρ σ'.back ∧
      (∃ o, as = (Sql.orderBy o (fun a : AccountRow => a.createdAt) (fun a => a.id)
        (ρ.store.accounts.rows.filter fun a => decide (a.tenantId = u))).map
          fun a => a.toAccount.dto) ∧
      getJson crates (vec AccountDto.deserialize) (accountsPath u) f = .ok as := by
  refine hf.read hcrates hsent h hrun ?_
  intro route body ρ o v v' hendpoint hextracted hρ hshows hbody hsame
  obtain ⟨hlookup, hids⟩ := route_of_resource hcrates (.tail _ (.head _)) hendpoint hextracted
  obtain rfl : route = .listAccounts u := by
    cases route <;> first | (cases hids; rfl) | cases hlookup
  obtain rfl := Option.some.inj hshows
  obtain rfl := Option.some.inj hbody
  rw [Json.rereadBy, rereadItems_map fun _ => rfl, List.map_map] at hsame
  -- quotas are within the check of their column
  have hquota : ∀ a ∈ ρ.store.accounts, quotaCheck a.quotaMb = true :=
    ((reached_started sesame answers).inv
      (hρ.reached (h.parts.2.mono fun _ _ => trivial))).store.quota_check
  refine ⟨_, vec_read (fun a ha _ => account_read (hquota a ?_)) hsame, o, rfl⟩
  exact (List.mem_filter.1 (Sql.mem_orderBy.1 ha)).1

theorem Fetched.policy (hcrates : crates.Conveys documents)
    (hsent : σ'.back.sent crates.timeText ⊆ documents)
    (h : Stack.Reached crates.toCrates cfg crates.percentDecode sesame answers σ)
    (hrun : Stack.Run crates.toCrates cfg crates.percentDecode sesame answers σ σ') {f : Fetch}
    {u : Uuid} (hf : Fetched crates actor host σ σ' (policyPath u) f) :
    (∃ e, f.Unread crates (policyPath u) e ∧
      getJson crates (PolicyDto.deserialize crates) (policyPath u) f = .error e) ∨
    ∃ ρ p, Leads sesame answers σ.back ρ ∧ Leads sesame answers ρ σ'.back ∧
      (∃ now, p = ((ρ.store.abusePolicy.find? u).getD (AbusePolicy.defaults u now)).dto
        crates.reread) ∧
      getJson crates (PolicyDto.deserialize crates) (policyPath u) f = .ok p := by
  refine hf.read hcrates hsent h hrun ?_
  intro route body ρ o v v' hendpoint hextracted hρ hshows hbody hsame
  obtain ⟨hlookup, hids⟩ :=
    route_of_resource hcrates (.tail _ (.tail _ (.head _))) hendpoint hextracted
  obtain ⟨now, rfl⟩ : ∃ now, route = .getPolicy u now := by
    cases route <;> first | (cases hids; exact ⟨_, rfl⟩) | cases hlookup
  obtain rfl := Option.some.inj hshows
  obtain rfl := Option.some.inj hbody
  have hordered := effective_ordered (hρ.reached (h.parts.2.mono fun _ _ => trivial)) u now
  exact ⟨_, policy_read hordered hsame, now, rfl⟩

end

/-! ### Pages are snapshots -/

section

variable (crates : ConsoleCrates) (sesame : Bool)
  (answers : ProvisionUser → Except ProviderError Uuid → Prop) (id : Uuid)
  (fs : List (String × Fetch))

/-- The request for a path has brought no document. -/
def Unread (path e : String) : Prop := ∃ f, (path, f) ∈ fs ∧ f.Unread crates path e

/-- All domains of the tenant at some moment between two states, or none where
they could not be read. -/
def DomainsShown (σ σ' : State) (domains : List DomainDto) : Prop :=
  (∃ e, Unread crates fs (domainsPath id) e ∧ domains = []) ∨
    ∃ ρ o, Leads sesame answers σ ρ ∧ Leads sesame answers ρ σ' ∧
      domains = (Sql.orderBy o Domain.createdAt Domain.id
        (ρ.store.domains.rows.filter fun m => decide (m.tenantId = id))).map Domain.dto

def AccountsShown (σ σ' : State) (accounts : List AccountDto) : Prop :=
  (∃ e, Unread crates fs (accountsPath id) e ∧ accounts = []) ∨
    ∃ ρ o, Leads sesame answers σ ρ ∧ Leads sesame answers ρ σ' ∧
      accounts = (Sql.orderBy o (fun a : AccountRow => a.createdAt) (fun a => a.id)
        (ρ.store.accounts.rows.filter fun a => decide (a.tenantId = id))).map
          fun a => a.toAccount.dto

/-- What the page of a tenant may show when it is made between two states, of
what its requests have come to. -/
inductive DetailShown (σ σ' : State) : Page → Prop
  | unread {e} (h : Unread crates fs tenantsPath e) :
      DetailShown σ σ' (renderErrorPage "Tenant" e)
  | missing {ρ} (before : Leads sesame answers σ ρ) (after : Leads sesame answers ρ σ')
      (none : ∀ t ∈ ρ.store.tenants, t.id ≠ id) :
      DetailShown σ σ' (renderErrorPage "Tenant not found" "No tenant with that id.")
  | policyUnread {ρ t e} (before : Leads sesame answers σ ρ) (after : Leads sesame answers ρ σ')
      (tenant : t ∈ ρ.store.tenants ∧ t.id = id) (h : Unread crates fs (policyPath id) e) :
      DetailShown σ σ' (renderErrorPage t.name e)
  | shown {ρ τ : State} {t ds as now} (before : Leads sesame answers σ ρ)
      (tenant : t ∈ ρ.store.tenants ∧ t.id = id)
      (domains : DomainsShown crates sesame answers id fs ρ σ' ds)
      (accounts : AccountsShown crates sesame answers id fs ρ σ' as)
      (policy : Leads sesame answers ρ τ ∧ Leads sesame answers τ σ') :
      DetailShown σ σ' (renderDetailPage t.dto ds as
        (((τ.store.abusePolicy.find? id).getD (AbusePolicy.defaults id now)).dto crates.reread))

end

section

variable {crates : ConsoleCrates} {cfg : Api → AuthConfig} {actor host : String} {sesame : Bool}
  {answers : ProvisionUser → Except ProviderError Uuid → Prop} {σ σ' : Stack} {id : Uuid}
  {fs : List (String × Fetch)}

theorem find?_dto {ts : List Tenant} :
    (ts.map Tenant.dto).find? (fun t => decide (t.id = id)) =
      (ts.find? fun t => decide (t.id = id)).map Tenant.dto := by
  rw [List.find?_map]
  rfl

/-- The list of tenants is one the database has held. -/
theorem tenants_page_snapshot (hcrates : crates.Conveys (σ'.back.sent crates.timeText))
    (h : Stack.Reached crates.toCrates cfg crates.percentDecode sesame answers σ) {page : Page}
    (hruns : (tenantsPage crates).Runs crates cfg actor host sesame answers σ fs σ' page) :
    (∃ e, Unread crates fs tenantsPath e ∧ page = renderErrorPage "Tenants" e) ∨
      ∃ ρ o, Leads sesame answers σ.back ρ ∧ Leads sesame answers ρ σ'.back ∧
        page = renderTenantsPage
          ((Sql.orderBy o Tenant.createdAt Tenant.id ρ.store.tenants.rows).map Tenant.dto) := by
  unfold tenantsPage at hruns
  cases hruns with
  | get hrun hf hrest =>
      rcases hf.tenants hcrates (hrest.leads.sent crates.timeText) h hrun with
        ⟨e, he, heq⟩ | ⟨ρ, _, hρ, hρ', ⟨o, rfl⟩, heq⟩
      · simp only [heq] at hrest
        cases hrest
        exact .inl ⟨e, ⟨_, List.mem_cons_self, he⟩, rfl⟩
      · simp only [heq] at hrest
        cases hrest
        exact .inr ⟨ρ, o, hρ, hρ', rfl⟩

/-! ### Behind an enforcing front door -/

/-- What a client without a token gets: its request is lost or turned away. -/
inductive Fetch.LockedOut (crates : ConsoleCrates) (path : String) : Fetch → String → Prop
  | lost {reason} :
      LockedOut crates path (.failed reason) ("request to " ++ path ++ " failed: " ++ reason)
  | unauthorized {body} :
      LockedOut crates path (.answered 401 body) (path ++ " returned " ++ crates.statusText 401)

theorem Fetch.LockedOut.unread {path : String} {f : Fetch} {e : String}
    (h : f.LockedOut crates path e) : f.Unread crates path e := by
  cases h with
  | lost => exact .lost
  | unauthorized => exact .refused rfl

/-- An enforcing front door turns away all that the console sends to the router. -/
theorem Stack.turned_away (henforcing : (cfg .admin).enforcing = true)
    (h : Stack.Reached crates.toCrates cfg crates.percentDecode sesame answers σ)
    {reply : Timed.Reply HttpRequest Outcome} (hreply : reply ∈ (σ.front .admin).replies)
    {path : String} (hjob : reply.job = consoleRequest actor host path)
    (hpath : exempt path.toList = false) : reply.answer = .unauthorized := by
  have hmeets : ∀ (req : HttpRequest) (t : Nat),
      Timed.Meets (provenance crates.toCrates (σ.front .admin).fetched)
        (fun _ _ out => exempt req.path = false → bearer req.headers = none → out = .unauthorized)
        none t (Api.admin.serve crates.toCrates (cfg .admin) req) := by
    intro req t
    by_cases htokenless : exempt req.path = false ∧ bearer req.headers = none
    · rw [serve_tokenless henforcing _ _ htokenless.1 htokenless.2]
      exact fun _ _ => rfl
    · refine (meets_endpoint .admin req).mono fun _ _ _ _ hexempt htoken => ?_
      exact absurd ⟨hexempt, htoken⟩ htokenless
  have hreached := (h.parts.1 .admin).fetched.mono fun σ' l hl =>
    provenance_allows crates.toCrates hl.2
  obtain ⟨-, -, hanswer⟩ := (Timed.Reached.holds hmeets hreached).replies reply hreply
  rw [hjob] at hanswer
  exact hanswer hpath rfl

theorem Fetched.lockedOut (henforcing : (cfg .admin).enforcing = true)
    (h : Stack.Reached crates.toCrates cfg crates.percentDecode sesame answers σ')
    {path : String} (hpath : exempt path.toList = false) {f : Fetch}
    (hf : Fetched crates actor host σ σ' path f) : ∃ e, f.LockedOut crates path e := by
  cases hf with
  | lost => exact ⟨_, .lost⟩
  | refused hnew hreply hjob houtcome =>
      rw [Stack.turned_away henforcing h (hnew ▸ List.mem_append_right _ hreply) hjob hpath]
        at houtcome
      cases houtcome
      exact ⟨_, .unauthorized⟩
  | served hnew hreply hjob houtcome =>
      rw [Stack.turned_away henforcing h (hnew ▸ List.mem_append_right _ hreply) hjob hpath]
        at houtcome
      cases houtcome

/-- Where tokens are asked for, every page of the console is the error page of a
request that was lost or turned away. -/
theorem console_locked_out (henforcing : (cfg .admin).enforcing = true)
    (h : Stack.Reached crates.toCrates cfg crates.percentDecode sesame answers σ) {page : Page} :
    ((tenantsPage crates).Runs crates cfg actor host sesame answers σ fs σ' page →
      ∃ f e, fs = [(tenantsPath, f)] ∧ f.LockedOut crates tenantsPath e ∧
        page = renderErrorPage "Tenants" e) ∧
    ((tenantDetailPage crates id).Runs crates cfg actor host sesame answers σ fs σ' page →
      ∃ f e, fs = [(tenantsPath, f)] ∧ f.LockedOut crates tenantsPath e ∧
        page = renderErrorPage "Tenant" e) := by
  have hpath : exempt tenantsPath.toList = false := by decide
  constructor
  · intro hruns
    unfold tenantsPage at hruns
    cases hruns with
    | @get _ _ _ _ f _ _ _ hrun hf hrest =>
        obtain ⟨e, he⟩ := hf.lockedOut henforcing (h.trans hrun) hpath
        simp only [he.unread.getJson_eq] at hrest
        cases hrest
        exact ⟨f, e, rfl, he, rfl⟩
  · intro hruns
    unfold tenantDetailPage at hruns
    cases hruns with
    | @get _ _ _ _ f _ _ _ hrun hf hrest =>
        obtain ⟨e, he⟩ := hf.lockedOut henforcing (h.trans hrun) hpath
        simp only [he.unread.getJson_eq] at hrest
        cases hrest
        exact ⟨f, e, rfl, he, rfl⟩

end

/-! ### Pages of a tenant with a domain -/

def hexValue (c : Char) : Option Nat :=
  if '0' ≤ c ∧ c ≤ '9' then some (c.toNat - 48)
  else if 'a' ≤ c ∧ c ≤ 'f' then some (c.toNat - 87)
  else none

/-- The number with these digits behind the ones of `n`. -/
def hexNumber : Nat → List Char → Option Nat
  | n, [] => some n
  | n, c :: cs => (hexValue c).bind fun d => hexNumber (16 * n + d) cs

theorem hexNumber_append (n : Nat) (cs ds : List Char) :
    hexNumber n (cs ++ ds) = (hexNumber n cs).bind fun m => hexNumber m ds := by
  induction cs generalizing n with
  | nil => rfl
  | cons c cs ih =>
      rw [List.cons_append, hexNumber, hexNumber, Option.bind_assoc]
      exact congrArg _ (funext fun d => ih _)

theorem hexValue_digitChar : ∀ a < 16, hexValue (Nat.digitChar a) = some a := by
  decide

theorem hexNumber_hexDigits (m n v : Nat) :
    hexNumber m (hexDigits n v) = some (16 ^ n * m + v % 16 ^ n) := by
  induction n generalizing v with
  | zero => simp [hexDigits, hexNumber, Nat.mod_one]
  | succ n ih =>
      rw [hexDigits, hexNumber_append, ih, Option.bind_some, hexNumber,
        hexValue_digitChar _ (Nat.mod_lt _ (by decide)), Option.bind_some, hexNumber,
        Nat.pow_succ', Nat.mod_mul]
      refine congrArg some ?_
      rw [Nat.mul_add, ← Nat.mul_assoc]
      omega

/-- One of the forms that `Uuid::parse_str` reads. -/
def Uuid.parseHyphenated (s : String) : Option Uuid :=
  match s.toList.splitOn '-' with
  | [a, b, c, d, e] =>
      if (a.length, b.length, c.length, d.length, e.length) = (8, 4, 4, 4, 12) then
        (hexNumber 0 (a ++ (b ++ (c ++ (d ++ e))))).map fun n => ⟨BitVec.ofNat 128 n⟩
      else none
  | _ => none

theorem Uuid.parseHyphenated_toText (u : Uuid) : parseHyphenated u.toText = some u := by
  have hdash : ∀ n v, '-' ∉ hexDigits n v := not_mem_hexDigits (by decide)
  obtain ⟨⟨v, hv⟩⟩ := u
  have hsplit : (toText ⟨⟨v, hv⟩⟩).toList.splitOn '-' = [hexDigits 8 (v / 16 ^ 24),
      hexDigits 4 (v / 16 ^ 20), hexDigits 4 (v / 16 ^ 16), hexDigits 4 (v / 16 ^ 12),
      hexDigits 12 v] := by
    have htext : (toText ⟨⟨v, hv⟩⟩).toList = ['-'].intercalate [hexDigits 8 (v / 16 ^ 24),
        hexDigits 4 (v / 16 ^ 20), hexDigits 4 (v / 16 ^ 16), hexDigits 4 (v / 16 ^ 12),
        hexDigits 12 v] := by
      rw [toText, String.toList_ofList]
      simp only [BitVec.toNat_ofFin]
      simp [List.intercalate]
    rw [htext, List.splitOn_intercalate '-' (by simp [hdash]) (List.cons_ne_nil _ _)]
  rw [parseHyphenated, hsplit]
  simp only [hexDigits_length, if_true, hexNumber_append, hexNumber_hexDigits, Option.bind_some,
    Option.map_some]
  refine congrArg some (congrArg Uuid.mk (BitVec.eq_of_toNat_eq ?_))
  rw [BitVec.toNat_ofNat, BitVec.toNat_ofFin]
  change _ = v
  omega

/-! A printer for documents whose strings need no escapes and whose floats are
whole. -/

mutual

def Json.print : Json → List Char
  | .null => "null".toList
  | .bool b => (toString b).toList
  | .int n => (toString n).toList
  | .num q => (toString q.num).toList ++ ".0".toList
  | .str s => '"' :: s.toList ++ ['"']
  | .arr items => '[' :: [','].intercalate (Json.printItems items) ++ [']']
  | .obj members => '\x7b' :: [','].intercalate (Json.printMembers members) ++ ['\x7d']

def Json.printItems : List Json → List (List Char)
  | [] => []
  | v :: rest => v.print :: Json.printItems rest

def Json.printMembers : List (String × Json) → List (List Char)
  | [] => []
  | (name, v) :: rest =>
      ('"' :: name.toList ++ '"' :: ':' :: v.print) :: Json.printMembers rest

end

def Json.toBytes (v : Json) : Bytes := textBytes v.print

def acmeId : Uuid := .number 11

def acme : Tenant := ⟨acmeId, "acme", "Acme", "standard", .active, 10⟩

def acmeDomain : Domain := ⟨.number 21, acmeId, "acme.example", .pendingDns, 20⟩

/-- Microseconds after the epoch. -/
def sampleTime (t : Timestamp) : String := "1970-01-01T00:00:00.0000" ++ toString t ++ "Z"

def acmeAccount : Account :=
  ⟨.number 32, acmeId, .number 21, "ann@acme.example", "Ann", 1024, .pendingProvisioning, 30⟩

def acmeResponses : List Response :=
  [.ok (.tenants [acme]), .ok (.domains [acmeDomain]), .ok (.accounts [acmeAccount]),
    .ok (.policy (.defaults acmeId 70))]

def acmeDocuments : List Json := acmeResponses.filterMap fun r => r.body.json sampleTime

theorem mem_acmeDocuments {r : Response} (hr : r ∈ acmeResponses) {v : Json}
    (hv : r.body.json sampleTime = some v) : v ∈ acmeDocuments :=
  List.mem_filterMap.2 ⟨r, hr, hv⟩

theorem find?_of_nodup {α β : Type} [DecidableEq β] {f : α → β} {as : List α}
    (hnodup : (as.map f).Nodup) {a : α} (ha : a ∈ as) :
    as.find? (fun b => decide (f b = f a)) = some a := by
  cases hfind : as.find? fun b => decide (f b = f a) with
  | none => exact absurd (decide_eq_true rfl) (List.find?_eq_none.1 hfind a ha)
  | some b =>
      have hb : f b = f a := by simpa using List.find?_some hfind
      rw [List.inj_on_of_nodup_map hnodup (List.mem_of_find?_eq_some hfind) ha hb]

/-- It knows only these documents. -/
def parseAcme (bytes : Bytes) : Option Json :=
  acmeDocuments.find? fun v => decide (v.toBytes = bytes)

theorem parseAcme_toBytes {v : Json} (hv : v ∈ acmeDocuments) :
    parseAcme v.toBytes = some v := by
  have hnodup : (acmeDocuments.map Json.toBytes).Nodup := by
    decide +kernel
  exact find?_of_nodup hnodup hv

theorem rereadBy_acmeDocuments {v : Json} (hv : v ∈ acmeDocuments) : v.rereadBy id = v := by
  change v ∈ [_, _, _, _] at hv
  simp only [List.mem_cons, List.not_mem_nil, or_false] at hv
  rcases hv with rfl | rfl | rfl | rfl <;> rfl

def consoleCrates : ConsoleCrates where
  toCrates := { publishingCrates with
    parseJson := parseAcme
    parseUuid := Uuid.parseHyphenated }
  timeText := sampleTime
  toVec := Json.toBytes
  reread := id
  nearest n := .fin n
  statusText
    | 401 => "401 Unauthorized"
    | _ => "500 Internal Server Error"
  percentDecode cs := some (String.ofList cs)

/-- Without a key set to ask, `x-actor` is believed. -/
def devConfig : AuthConfig := ⟨none, none, 600⟩

deriving instance DecidableEq for Caller, HttpRequest, Tenant, Domain, Account, AbusePolicy

/-- Two responses of the console's requests are the same. -/
def Response.is : Response → Response → Bool
  | ⟨s, .tenants ts⟩, ⟨s', .tenants ts'⟩ => decide (s = s' ∧ ts = ts')
  | ⟨s, .domains ms⟩, ⟨s', .domains ms'⟩ => decide (s = s' ∧ ms = ms')
  | ⟨s, .accounts as⟩, ⟨s', .accounts as'⟩ => decide (s = s' ∧ as = as')
  | ⟨s, .policy p⟩, ⟨s', .policy p'⟩ => decide (s = s' ∧ p = p')
  | _, _ => false

theorem Response.eq_of_is {r r' : Response} (h : r.is r' = true) : r = r' := by
  unfold Response.is at h
  split at h
  · obtain ⟨rfl, rfl⟩ := of_decide_eq_true h
    rfl
  · obtain ⟨rfl, rfl⟩ := of_decide_eq_true h
    rfl
  · obtain ⟨rfl, rfl⟩ := of_decide_eq_true h
    rfl
  · obtain ⟨rfl, rfl⟩ := of_decide_eq_true h
    rfl
  · cases h

/-- The front door has let a request through to the handler of the route. -/
def grantsTo (reply : Timed.Reply HttpRequest Outcome) (caller : Caller) (route : Route) : Bool :=
  (match reply.answer with
    | .handler e (some c) => decide (e = route.endpoint ∧ c = caller)
    | _ => false) &&
  decide ((Api.admin.captured reply.job.path).mapM (fun cs =>
    (consoleCrates.percentDecode cs).bind consoleCrates.parseUuid) = some route.ids)

theorem of_grantsTo {reply : Timed.Reply HttpRequest Outcome} {caller : Caller} {route : Route}
    (h : grantsTo reply caller route = true) :
    reply.answer = .handler route.endpoint (some caller) ∧
      route.ExtractedFrom consoleCrates.toCrates consoleCrates.percentDecode .admin reply.job := by
  rw [grantsTo, Bool.and_eq_true, decide_eq_true_eq] at h
  obtain ⟨houtcome, hroute⟩ := h
  refine ⟨?_, hroute⟩
  split at houtcome
  · rename_i e c hanswer
    obtain ⟨rfl, rfl⟩ := of_decide_eq_true houtcome
    exact hanswer
  · cases houtcome

def Stack.grants (σ : Stack) : Request → Bool
  | .http caller route => (σ.front .admin).replies.any fun reply => grantsTo reply caller route
  | _ => true

theorem Stack.admits_of_grants {σ : Stack} {c : Request} (h : σ.grants c = true) :
    σ.Admits consoleCrates.toCrates consoleCrates.percentDecode c := by
  cases c with
  | http caller route =>
      obtain ⟨reply, hreply, h⟩ := List.any_eq_true.1 h
      exact ⟨.admin, reply, hreply, of_grantsTo h⟩
  | reconcile batch | operator change => trivial

/-- Requests to the front door of admin-api. -/
def knock (cfg : AuthConfig) (reqs : List (Nat × HttpRequest)) (σ : Stack) : Option Stack :=
  (Timed.replay (fun req => Api.admin.serve consoleCrates.toCrates cfg req) (fun _ _ => true)
      (reqs.flatMap fun r => [.spawn r.1 r.2, .reply r.1]) (σ.front .admin)).map fun φ =>
    { σ with front := Function.update σ.front .admin φ }

/-- And what then happens behind it. -/
def stage (reqs : List (Nat × HttpRequest)) (events : List Event) (σ : Stack) : Option Stack :=
  (knock devConfig reqs σ).bind fun σ₁ =>
    (replay (services false fun _ _ => False) (fun c => σ₁.grants c = true) (fun _ _ => True)
      σ₁.back events).map fun β => { σ₁ with back := β }

theorem run_of_knock {cfg : AuthConfig} {reqs : List (Nat × HttpRequest)} {σ σ' : Stack}
    (h : knock cfg reqs σ = some σ') :
    σ'.back = σ.back ∧ Stack.Run consoleCrates.toCrates (fun _ => cfg)
      consoleCrates.percentDecode false (fun _ _ => False) σ σ' := by
  obtain ⟨φ, hφ, rfl⟩ := Option.map_eq_some_iff.1 h
  exact ⟨rfl, Stack.run_front hφ⟩

abbrev DevRun : Stack → Stack → Prop :=
  Stack.Run consoleCrates.toCrates (fun _ => devConfig) consoleCrates.percentDecode false
    fun _ _ => False

theorem run_of_stage {σ σ' : Stack} {reqs : List (Nat × HttpRequest)} {events : List Event}
    (h : Reached false (fun _ _ => False) σ.back) (hstage : stage reqs events σ = some σ') :
    DevRun σ σ' := by
  obtain ⟨σ₁, hknock, hstage⟩ := Option.bind_eq_some_iff.1 hstage
  obtain ⟨β, hβ, rfl⟩ := Option.map_eq_some_iff.1 hstage
  obtain ⟨hback, hfront⟩ := run_of_knock hknock
  rw [← hback] at h
  exact hfront.trans (Stack.run_back (fun c => Stack.admits_of_grants)
    (run_of_replay_mono (fun _ _ => trivial) h hβ))

/-- The console has got this response to its request. -/
def servedBy (σ σ' : Stack) (path : String) (r : Response) : Bool :=
  σ'.back.replies.any fun e => decide (e.pid ∉ σ.back.started) &&
    match e.request, e.answer with
    | .http caller route, .http r' => r'.is r &&
        ((σ'.front .admin).replies.drop (σ.front .admin).replies.length).any fun reply =>
          decide (reply.job = consoleRequest "admin-console" "admin-api" path) &&
            grantsTo reply caller route
    | _, _ => false

theorem fetched_of_servedBy {σ σ' : Stack} (hrun : DevRun σ σ') {path : String} {r : Response}
    (hserved : servedBy σ σ' path r = true) {v : Json} (hv : r.body.json sampleTime = some v) :
    Fetched consoleCrates "admin-console" "admin-api" σ σ' path
      (.answered r.status (.ok (consoleCrates.toVec v))) := by
  obtain ⟨e, he, h⟩ := List.any_eq_true.1 hserved
  rw [Bool.and_eq_true, decide_eq_true_eq] at h
  obtain ⟨hpid, h⟩ := h
  split at h
  · rename_i caller route r' hrequest hanswer
    rw [Bool.and_eq_true] at h
    obtain ⟨hr, h⟩ := h
    obtain rfl := Response.eq_of_is hr
    obtain ⟨reply, hreply, h⟩ := List.any_eq_true.1 h
    rw [Bool.and_eq_true, decide_eq_true_eq] at h
    obtain ⟨hjob, hgrants⟩ := h
    obtain ⟨houtcome, hroute⟩ := of_grantsTo hgrants
    refine .served ?_ hreply hjob houtcome hroute he hpid hrequest hanswer hv (.inl rfl)
    obtain ⟨new, hnew⟩ := Stack.Run.replies hrun .admin
    rw [← hnew, List.drop_left]
  · cases h

/-- A tenant is founded, with a domain and an account; nobody waits for the
answers. -/
def founding : Stack → Option Stack :=
  stage
    [(0, ⟨.post, tenantsPath.toList, [("x-actor", textBytes "ops".toList)]⟩),
      (1, ⟨.post, (domainsPath acmeId).toList, [("x-actor", textBytes "ops".toList)]⟩),
      (2, ⟨.post, (accountsPath acmeId).toList, [("x-actor", textBytes "ops".toList)]⟩)]
    ([.spawn 0 (.http ⟨"ops", none, []⟩ (.createTenant { slug := "acme", name := "Acme" })),
        .spawn 1 (.http ⟨"ops", none, []⟩ (.createDomain acmeId { fqdn := "acme.example" })),
        .spawn 2 (.http ⟨"ops", none, []⟩ (.createAccount acmeId
          { domainId := .number 21, localPart := "ann", displayName := "Ann" }))] ++
      undisturbed 0 10 3 ++ undisturbed 1 20 3 ++ undisturbed 2 30 4)

def listing : Stack → Option Stack :=
  stage [(3, consoleRequest "admin-console" "admin-api" tenantsPath)]
    ([.spawn 3 (.http ⟨"admin-console", none, []⟩ .listTenants)] ++ undisturbed 3 40 2 ++
      [.reply 3])

def detailing : Stack → Option Stack :=
  stage
    [(4, consoleRequest "admin-console" "admin-api" (domainsPath acmeId)),
      (5, consoleRequest "admin-console" "admin-api" (accountsPath acmeId)),
      (6, consoleRequest "admin-console" "admin-api" (policyPath acmeId))]
    ([.spawn 4 (.http ⟨"admin-console", none, []⟩ (.listDomains acmeId)),
        .spawn 5 (.http ⟨"admin-console", none, []⟩ (.listAccounts acmeId)),
        .spawn 6 (.http ⟨"admin-console", none, []⟩ (.getPolicy acmeId 70))] ++
      undisturbed 4 50 2 ++ undisturbed 5 60 2 ++ undisturbed 6 70 2 ++
      [.reply 4, .reply 5, .reply 6])

/-- Only these documents have been sent. -/
def sentOnly (σ : State) : Bool :=
  σ.replies.all fun e =>
    match e.answer with
    | .http r => acmeResponses.any r.is
    | _ => true

theorem consoleCrates_uuid (u : Uuid) : consoleCrates.parseUuid u.toText = some u := by
  have huuid : consoleCrates.parseUuid = Uuid.parseHyphenated := rfl
  rw [huuid]
  exact u.parseHyphenated_toText

theorem consoleCrates_json {v : Json} (hv : v ∈ acmeDocuments) :
    consoleCrates.parseJson (consoleCrates.toVec v) = some v := by
  have hread : consoleCrates.parseJson = parseAcme := by rw [consoleCrates]
  have hwritten : consoleCrates.toVec = Json.toBytes := rfl
  rw [hread, hwritten]
  exact parseAcme_toBytes hv

theorem conveys_of_sentOnly {σ : State} (h : sentOnly σ = true) :
    consoleCrates.Conveys (σ.sent sampleTime) where
  uuid := consoleCrates_uuid
  plain u := by
    have hplain : consoleCrates.percentDecode = fun cs => some (String.ofList cs) := rfl
    rw [hplain]
    exact congrArg some String.ofList_toList
  json v hv := by
    obtain ⟨e, he, r, hr, hbody⟩ := hv
    have hsent := List.all_eq_true.1 h e he
    simp only [hr] at hsent
    obtain ⟨r', hr', his⟩ := List.any_eq_true.1 hsent
    obtain rfl := Response.eq_of_is his
    have hmem : v ∈ acmeDocuments := mem_acmeDocuments hr' hbody
    have hreread : consoleCrates.reread = id := rfl
    rw [consoleCrates_json hmem, hreread, rereadBy_acmeDocuments hmem]
    exact ⟨v, rfl, .refl v⟩

theorem acme_read : getJson consoleCrates (vec (TenantDto.deserialize consoleCrates)) tenantsPath
    (.answered 200 (.ok (consoleCrates.toVec (.arr [acme.json sampleTime])))) =
      .ok [acme.dto] := by
  have hsame : Same (.arr ([acme].map (Tenant.json consoleCrates.timeText)))
      (.arr [acme.json sampleTime]) := .refl _
  exact getJson_ok _ (consoleCrates_json (mem_acmeDocuments (.head _) rfl))
    (vec_read (fun _ _ _ => tenant_read consoleCrates_uuid) hsame) _

theorem acmeDomain_read : getJson consoleCrates (vec DomainDto.deserialize) (domainsPath acmeId)
    (.answered 200 (.ok (consoleCrates.toVec (.arr [acmeDomain.json sampleTime])))) =
      .ok [acmeDomain.dto] := by
  have hsame : Same (.arr ([acmeDomain].map (Domain.json consoleCrates.timeText)))
      (.arr [acmeDomain.json sampleTime]) := .refl _
  exact getJson_ok _ (consoleCrates_json (mem_acmeDocuments (.tail _ (.head _)) rfl))
    (vec_read (fun _ _ _ => domain_read) hsame) _

theorem acmeAccount_read :
    getJson consoleCrates (vec AccountDto.deserialize) (accountsPath acmeId)
      (.answered 200 (.ok (consoleCrates.toVec (.arr [acmeAccount.json sampleTime])))) =
        .ok [acmeAccount.dto] := by
  have hsame : Same (.arr ([acmeAccount].map (Account.json consoleCrates.timeText)))
      (.arr [acmeAccount.json sampleTime]) := .refl _
  have hquota : ∀ a ∈ [acmeAccount], quotaCheck a.quotaMb = true := by decide
  exact getJson_ok _ (consoleCrates_json (mem_acmeDocuments (.tail _ (.tail _ (.head _))) rfl))
    (vec_read (fun a ha _ => account_read (hquota a ha)) hsame) _

theorem acmePolicy_read :
    getJson consoleCrates (PolicyDto.deserialize consoleCrates) (policyPath acmeId)
      (.answered 200 (.ok (consoleCrates.toVec ((AbusePolicy.defaults acmeId 70).json
        sampleTime)))) = .ok ((AbusePolicy.defaults acmeId 70).dto id) := by
  have hordered : (AbusePolicy.defaults acmeId 70).Ordered :=
    ⟨15, 6, 4, rfl, rfl, rfl, by decide, by decide, by decide⟩
  have hmem : (AbusePolicy.defaults acmeId 70).json sampleTime ∈ acmeDocuments :=
    mem_acmeDocuments (.tail _ (.tail _ (.tail _ (.head _)))) rfl
  have hsame : Same (((AbusePolicy.defaults acmeId 70).json consoleCrates.timeText).rereadBy
      consoleCrates.reread) ((AbusePolicy.defaults acmeId 70).json sampleTime) := by
    change Same (((AbusePolicy.defaults acmeId 70).json sampleTime).rereadBy id) _
    rw [rereadBy_acmeDocuments hmem]
    exact .refl _
  exact getJson_ok _ (consoleCrates_json hmem) (policy_read hordered hsame) _

def acmePage : Page :=
  renderDetailPage acme.dto [acmeDomain.dto] [acmeAccount.dto]
    ((AbusePolicy.defaults acmeId 70).dto id)

/-- What the requests of the page have come to. -/
def acmeFetches : List (String × Fetch) :=
  [(tenantsPath, .answered 200 (.ok (consoleCrates.toVec (.arr [acme.json sampleTime])))),
    (domainsPath acmeId,
      .answered 200 (.ok (consoleCrates.toVec (.arr [acmeDomain.json sampleTime])))),
    (accountsPath acmeId,
      .answered 200 (.ok (consoleCrates.toVec (.arr [acmeAccount.json sampleTime])))),
    (policyPath acmeId, .answered 200 (.ok (consoleCrates.toVec
      ((AbusePolicy.defaults acmeId 70).json sampleTime))))]

theorem acme_replayed : ∃ σ₀ σ₁ σ₂, founding .init = some σ₀ ∧ listing σ₀ = some σ₁ ∧
    detailing σ₁ = some σ₂ ∧ servedBy σ₀ σ₁ tenantsPath (.ok (.tenants [acme])) = true ∧
    servedBy σ₁ σ₂ (domainsPath acmeId) (.ok (.domains [acmeDomain])) = true ∧
    servedBy σ₁ σ₂ (accountsPath acmeId) (.ok (.accounts [acmeAccount])) = true ∧
    servedBy σ₁ σ₂ (policyPath acmeId) (.ok (.policy (.defaults acmeId 70))) = true ∧
    sentOnly σ₂.back = true := by
  have hall : ((founding .init).any fun σ₀ => (listing σ₀).any fun σ₁ =>
      (detailing σ₁).any fun σ₂ => servedBy σ₀ σ₁ tenantsPath (.ok (.tenants [acme])) &&
        (servedBy σ₁ σ₂ (domainsPath acmeId) (.ok (.domains [acmeDomain])) &&
          (servedBy σ₁ σ₂ (accountsPath acmeId) (.ok (.accounts [acmeAccount])) &&
            (servedBy σ₁ σ₂ (policyPath acmeId) (.ok (.policy (.defaults acmeId 70))) &&
              sentOnly σ₂.back)))) = true := by
    decide +kernel
  obtain ⟨σ₀, h₀, hall⟩ := (Option.any_eq_true _ _).1 hall
  obtain ⟨σ₁, h₁, hall⟩ := (Option.any_eq_true _ _).1 hall
  obtain ⟨σ₂, h₂, hall⟩ := (Option.any_eq_true _ _).1 hall
  simp only [Bool.and_eq_true] at hall
  exact ⟨σ₀, σ₁, σ₂, h₀, h₁, h₂, hall⟩

/-- The console makes the page of a tenant with a domain and an account. -/
theorem runs_acme : ∃ σ₀ σ₂,
    Stack.Reached consoleCrates.toCrates (fun _ => devConfig) consoleCrates.percentDecode false
      (fun _ _ => False) σ₀ ∧ sentOnly σ₂.back = true ∧
    (tenantDetailPage consoleCrates acmeId).Runs consoleCrates (fun _ => devConfig)
      "admin-console" "admin-api" false (fun _ _ => False) σ₀ acmeFetches σ₂ acmePage := by
  obtain ⟨σ₀, σ₁, σ₂, h₀, h₁, h₂, htenants, hdomains, haccounts, hpolicy, hsent⟩ := acme_replayed
  have hrun₀ : Stack.Reached consoleCrates.toCrates (fun _ => devConfig)
      consoleCrates.percentDecode false (fun _ _ => False) σ₀ := run_of_stage .init h₀
  have hrun₁ := run_of_stage (hrun₀.parts.2.mono fun _ _ => trivial) h₁
  have hb₁ : Stack.Reached consoleCrates.toCrates (fun _ => devConfig)
      consoleCrates.percentDecode false (fun _ _ => False) σ₁ := hrun₀.trans hrun₁
  have hrun₂ := run_of_stage (hb₁.parts.2.mono fun _ _ => trivial) h₂
  refine ⟨σ₀, σ₂, hrun₀, hsent, ?_⟩
  refine .get hrun₁ (fetched_of_servedBy hrun₁ htenants rfl) ?_
  have hfind : [acme.dto].find? (fun t => decide (t.id = acmeId)) = some acme.dto := rfl
  simp only [acme_read, hfind]
  refine .join hrun₂ (fetched_of_servedBy hrun₂ hdomains rfl)
    (fetched_of_servedBy hrun₂ haccounts rfl) (fetched_of_servedBy hrun₂ hpolicy rfl) ?_
  simp only [acmeDomain_read, acmeAccount_read, acmePolicy_read]
  exact .ret

def Outcome.turnsAway : Outcome → Bool
  | .unauthorized => true
  | _ => false

/-- The console asks an enforcing front door, and is turned away. -/
theorem turned_away_sample : ∃ σ : Stack,
    Stack.Run consoleCrates.toCrates (fun _ => sampleConfig) consoleCrates.percentDecode false
      (fun _ _ => False) .init σ ∧
    Fetched consoleCrates "admin-console" "admin-api" .init σ tenantsPath
      (.answered 401 (.ok [])) := by
  have hall : (knock sampleConfig [(0, consoleRequest "admin-console" "admin-api" tenantsPath)]
      .init).any (fun σ => (σ.front .admin).replies.any fun reply =>
        decide (reply.job = consoleRequest "admin-console" "admin-api" tenantsPath) &&
          reply.answer.turnsAway) = true := by
    decide +kernel
  obtain ⟨σ, hknock, hall⟩ := (Option.any_eq_true _ _).1 hall
  obtain ⟨reply, hreply, h⟩ := List.any_eq_true.1 hall
  obtain ⟨hjob, haway⟩ := Bool.and_eq_true_iff.1 h
  have hrefuses : reply.answer.Refuses 401 := by
    unfold Outcome.turnsAway at haway
    split at haway
    · rename_i hanswer
      rw [hanswer]
      exact .unauthorized
    · cases haway
  exact ⟨σ, (run_of_knock hknock).2, .refused rfl hreply (of_decide_eq_true hjob) hrefuses⟩

theorem console_locked_out_refused : ∃ (σ : Stack) (fs : List (String × Fetch))
    (pages : Page × Page),
    ((tenantsPage consoleCrates).Runs consoleCrates (fun _ => sampleConfig) "admin-console"
      "admin-api" false (fun _ _ => False) .init fs σ pages.1 ∧
      ∃ f e, fs = [(tenantsPath, f)] ∧ f.LockedOut consoleCrates tenantsPath e ∧
        pages.1 = renderErrorPage "Tenants" e) ∧
    ((tenantDetailPage consoleCrates acmeId).Runs consoleCrates (fun _ => sampleConfig)
      "admin-console" "admin-api" false (fun _ _ => False) .init fs σ pages.2 ∧
      ∃ f e, fs = [(tenantsPath, f)] ∧ f.LockedOut consoleCrates tenantsPath e ∧
        pages.2 = renderErrorPage "Tenant" e) := by
  obtain ⟨σ, hrun, hf⟩ := turned_away_sample
  have htenants : (tenantsPage consoleCrates).Runs consoleCrates (fun _ => sampleConfig)
      "admin-console" "admin-api" false (fun _ _ => False) .init
      [(tenantsPath, .answered 401 (.ok []))] σ
      (renderErrorPage "Tenants" "/api/v1/tenants returned 401 Unauthorized") :=
    .get hrun hf .ret
  have hdetail : (tenantDetailPage consoleCrates acmeId).Runs consoleCrates
      (fun _ => sampleConfig) "admin-console" "admin-api" false (fun _ _ => False) .init
      [(tenantsPath, .answered 401 (.ok []))] σ
      (renderErrorPage "Tenant" "/api/v1/tenants returned 401 Unauthorized") :=
    .get hrun hf .ret
  exact ⟨σ, _, (_, _),
    ⟨htenants, (@console_locked_out _ _ _ _ _ _ _ _ acmeId _ rfl .refl _).1 htenants⟩,
    hdetail, (console_locked_out rfl .refl).2 hdetail⟩

end OpenGroupware
