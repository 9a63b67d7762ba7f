import OpenGroupware.Auth
import OpenGroupware.Db
import OpenGroupware.Remote.Client

/-!
The client of sesame-idam: machine-to-machine tokens from its login service,
cached until near their expiry, and users provisioned through its user
management, by email. Its HTTP client follows redirects.
-/

namespace OpenGroupware

open Remote

/-! ### Configuration -/

structure SesameConfig where
  loginUrl : String
  userMgmtUrl : String
  tenant : String
  clientId : String
  clientSecret : String

/-- The characters `trim` removes. -/
def whiteSpace (c : Char) : Bool :=
  let n := c.toNat
  decide (9 ≤ n ∧ n ≤ 13) || decide (0x2000 ≤ n ∧ n ≤ 0x200a) ||
    [0x20, 0x85, 0xa0, 0x1680, 0x2028, 0x2029, 0x202f, 0x205f, 0x3000].contains n

/-- `s.trim().is_empty()`. -/
def blank (s : String) : Bool := s.toList.all whiteSpace

/-- Nothing unless the integration is configured. -/
def SesameConfig.fromEnv (env : String → Option String) : Option SesameConfig := do
  let get := fun k => (env k).filter fun v => !blank v
  let loginUrl ← get "SESAME_LOGIN_URL"
  let userMgmtUrl ← get "SESAME_USER_MGMT_URL"
  let tenant ← get "SESAME_TENANT"
  let clientId ← get "SESAME_CLIENT_ID"
  let clientSecret ← get "SESAME_CLIENT_SECRET"
  return { loginUrl, userMgmtUrl, tenant, clientId, clientSecret }

/-! ### Messages -/

/-- `s.trim_end_matches('/')`. -/
def trimEndSlashes (s : String) : String :=
  String.ofList (s.toList.reverse.dropWhile (· == '/')).reverse

/-- A request of a client, with its body in JSON if it has one. -/
structure HttpCall where
  method : Method
  url : String
  headers : List (String × String)
  body : Option Json

/-- A response: its status, its `Location` header, and its body unless the
connection broke off. -/
structure HttpResponse where
  status : Nat
  location : Option String
  body : Except String Bytes

/-- The responses that send the client elsewhere. -/
def HttpResponse.redirects (resp : HttpResponse) : Bool :=
  [301, 302, 303, 307, 308].contains resp.status && resp.location.isSome

/-- `StatusCode::is_success`. -/
def success (status : Nat) : Bool := decide (200 ≤ status ∧ status < 300)

/-- Code of other packages that requests are sent and responses are read with. -/
structure HttpCrates extends Crates where
  /-- A status with its reason phrase. -/
  statusText : Nat → String
  /-- The request that a response to a request is followed to, if to any, or why it
  cannot be followed. -/
  redirect : HttpCall → HttpResponse → Except String (Option HttpCall)
  /-- What is said when this would be one redirect too many. -/
  tooManyRedirects : HttpCall → String
  redirect_none : ∀ req resp, resp.redirects = false → redirect req resp = .ok none

structure TokenResponse where
  accessToken : String
  expiresIn : Int

structure CreatedUser where
  userId : Uuid

open Serde

def TokenResponse.deserialize (v : Json) : Option TokenResponse := do
  let given ← fields ["access_token", "expires_in"] v
  let accessToken ← required given "access_token" string
  let expiresIn ← required given "expires_in" i32
  return { accessToken, expiresIn }

def CreatedUser.deserialize (crates : HttpCrates) (v : Json) : Option CreatedUser := do
  let given ← fields ["user_id"] v
  let userId ← required given "user_id" fun v => (string v).bind crates.parseUuid
  return { userId }

/-! ### The client -/

structure CachedToken where
  accessToken : String
  validUntil : Nat

/-- The clock ticks in nanoseconds. -/
def second : Nat := 10 ^ 9

abbrev SesameProgram (α : Type) : Type := Remote.Prog CachedToken HttpCall HttpResponse α

/-- `Result<α, ProviderError>`. -/
abbrev SesameM (α : Type) : Type := ExceptT ProviderError SesameProgram α

def cachedToken : SesameM (Option String) :=
  ExceptT.mk (.read fun token now =>
    .ret (.ok ((token.filter fun t => decide (now < t.validUntil)).map CachedToken.accessToken)))

/-- How long a token is kept: until a minute before it expires. -/
def tokenTtl (expiresIn : Int) : Nat := (max expiresIn 61 - 60).toNat * second

def storeToken (accessToken : String) (expiresIn : Int) : SesameM Unit :=
  ExceptT.mk (.write (fun now => { accessToken, validUntil := now + tokenTtl expiresIn })
    (.ret (.ok ())))

/-- One request and its response; `what` goes before the reason of a failure. -/
def sendOnce (what : String) (req : HttpCall) : SesameM HttpResponse :=
  ExceptT.mk (.send req fun r =>
    .ret (r.mapError fun reason => ProviderError.unavailable (what ++ reason)))

/-- What is made of a response, if `again` posts the request it redirects to. -/
def followed (crates : HttpCrates) (what : String) (again : HttpCall → SesameM HttpResponse)
    (req : HttpCall) (resp : HttpResponse) : SesameM HttpResponse :=
  match crates.redirect req resp with
  | .error reason => throw (.unavailable (what ++ reason))
  | .ok none => return resp
  | .ok (some next) => again next

/-- A request, and up to so many redirects. -/
def sendFollowing (crates : HttpCrates) (what : String) : Nat → HttpCall → SesameM HttpResponse
  | 0, req => do
      let resp ← sendOnce what req
      followed crates what (fun next => throw (.unavailable (what ++ crates.tooManyRedirects next)))
        req resp
  | hops + 1, req => do
      let resp ← sendOnce what req
      followed crates what (sendFollowing crates what hops) req resp

/-- `send().await`: a client that has not been told otherwise follows ten
redirects. -/
def sendPost (crates : HttpCrates) (what : String) (req : HttpCall) : SesameM HttpResponse :=
  sendFollowing crates what 10 req

/-- `resp.json().await`. -/
def readJson {α : Type} (crates : HttpCrates) (de : Json → Option α) (what : String)
    (resp : HttpResponse) : Except ProviderError α :=
  match resp.body with
  | .error reason => .error (.internal (what ++ reason))
  | .ok body =>
      match (crates.parseJson body).bind de with
      | some a => .ok a
      | none => .error (.internal (what ++ crates.jsonError body))

section

variable (crates : HttpCrates) (cfg : SesameConfig)

def tokenRequest : HttpCall where
  method := .post
  url := trimEndSlashes cfg.loginUrl ++ "/auth/token"
  headers := [("X-Tenant-ID", cfg.tenant)]
  body := some (.obj [("grant_type", .str "client_credentials"),
    ("client_id", .str cfg.clientId), ("client_secret", .str cfg.clientSecret)])

/-- What the answer of the token endpoint says. -/
def readToken (resp : HttpResponse) : Except ProviderError TokenResponse := do
  if !success resp.status then
    throw (.unavailable ("sesame token endpoint returned " ++ crates.statusText resp.status))
  let body ← readJson crates TokenResponse.deserialize "sesame token decode: " resp
  if body.accessToken.isEmpty then
    throw (.unavailable "sesame issued an empty token (invalid client credentials?)")
  return body

/-- M2M access token via client_credentials, cached until near expiry. -/
def token : SesameM String := do
  match ← cachedToken with
  | some tok => return tok
  | none =>
      let resp ← sendPost crates "sesame token request: " (tokenRequest cfg)
      let body ← liftM (readToken crates resp)
      storeToken body.accessToken body.expiresIn
      return body.accessToken

def createUserRequest (tok email displayName : String) : HttpCall where
  method := .post
  url := trimEndSlashes cfg.userMgmtUrl ++ "/admin/users"
  headers := [("Authorization", "Bearer " ++ tok), ("X-Tenant-ID", cfg.tenant)]
  body := some (.obj ([("email", .str email), ("email_confirmed", .bool true)] ++
    if blank displayName then [] else [("first_name", .str displayName)]))

/-- What the answer to the creation of a user says. -/
def readUser (resp : HttpResponse) : Except ProviderError Uuid := do
  if !success resp.status then
    throw (.unavailable ("sesame create_user returned " ++ crates.statusText resp.status))
  let user ← readJson crates (CreatedUser.deserialize crates) "sesame create_user decode: " resp
  return user.userId

/-- Provision (or fetch, idempotently) a sesame user for a mail account. -/
def provisionUser (email displayName : String) : SesameM Uuid := do
  let tok ← token crates cfg
  let resp ← sendPost crates "sesame create_user: " (createUserRequest cfg tok email displayName)
  liftM (readUser crates resp)

end

end OpenGroupware
