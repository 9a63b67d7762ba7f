import OpenGroupware.Serde
import OpenGroupware.Timed.Prog
import Mathlib.Logic.Function.Basic

/-!
`og-auth`: verification of bearer tokens against the published keys of the
identity provider, which are cached. Base64, JSON, Ed25519 and the parser of
identifiers come from other packages.
-/

namespace OpenGroupware

open Timed

abbrev Bytes : Type := List UInt8

/-- The methods of requests. -/
inductive Method
  | get
  | head
  | post
  | put
  | other (name : String)
deriving DecidableEq

/-- Code of other packages that tokens are verified with. -/
structure Crates where
  /-- Base64 in the URL-safe alphabet, without padding. -/
  decode64 : List Char → Option Bytes
  parseJson : Bytes → Option Json
  /-- Why a body is not the document that was asked for. -/
  jsonError : Bytes → String
  /-- A key, a message and a signature. -/
  ed25519 : Bytes → Bytes → Bytes → Bool
  parseUuid : String → Option Uuid

inductive AuthError
  | missingToken
  | malformed
  | unknownKey
  | badSignature
  | expired
  | issuerMismatch
  | jwksUnavailable (message : String)

structure AuthConfig where
  jwksUrl : Option String
  issuer : Option String
  cacheTtl : Nat

/-! ### Documents -/

structure Jwk where
  kid : String
  x : String
  kty : String
  crv : String

structure JwkSet where
  keys : List Jwk

structure Header where
  alg : String
  kid : String

structure Sx where
  roles : List String

structure Claims where
  sub : String
  exp : Int
  iss : String
  tenantId : Option String
  sx : Option Sx

open Serde

def Jwk.deserialize (v : Json) : Option Jwk := do
  let given ← fields ["kid", "x", "kty", "crv"] v
  let kid ← required given "kid" string
  let x ← required given "x" string
  let kty ← defaulted given "kty" string ""
  let crv ← defaulted given "crv" string ""
  return { kid, x, kty, crv }

def JwkSet.deserialize (v : Json) : Option JwkSet := do
  let given ← fields ["keys"] v
  let keys ← required given "keys" (vec Jwk.deserialize)
  return { keys }

def Header.deserialize (v : Json) : Option Header := do
  let given ← fields ["alg", "kid"] v
  let alg ← required given "alg" string
  let kid ← required given "kid" string
  return { alg, kid }

def Sx.deserialize (v : Json) : Option Sx := do
  let given ← fields ["roles"] v
  let roles ← defaulted given "roles" (vec string) []
  return { roles }

def Claims.deserialize (v : Json) : Option Claims := do
  let given ← fields ["sub", "exp", "iss", "tenant_id", "sx"] v
  let sub ← defaulted given "sub" string ""
  let exp ← defaulted given "exp" i64 0
  let iss ← defaulted given "iss" string ""
  let tenantId ← defaulted given "tenant_id" (option string) none
  let sx ← defaulted given "sx" (option Sx.deserialize) none
  return { sub, exp, iss, tenantId, sx }

/-! ### The authenticator -/

/-- Raw public keys by key id, and when the entry was made. -/
structure CachedKeys where
  keys : String → Option Bytes
  fetchedAt : Nat

abbrev AuthProgram (α : Type) : Type := Timed.Prog CachedKeys Bytes α

/-- `Result<α, AuthError>`. -/
abbrev AuthM (α : Type) : Type := ExceptT AuthError AuthProgram α

/-- `ok_or`. -/
def okOr {α : Type} (e : AuthError) : Option α → AuthM α
  | some a => pure a
  | none => throw e

def fetch : AuthM Bytes :=
  ExceptT.mk (.fetch fun r => .ret (r.mapError AuthError.jwksUnavailable))

/-- `Instant::now()`. -/
def instantNow : AuthM Nat := ExceptT.mk (.instant fun t => .ret (.ok t))

/-- `*self.cache.write().await = Some(entry)`. -/
def store (entry : CachedKeys) : AuthM Unit := ExceptT.mk (.write entry (.ret (.ok ())))

/-- Seconds since the epoch, as an `i64`. -/
def unixSeconds : Option Nat → Int
  | some secs => if secs < 2 ^ 63 then secs else 2 ^ 63 - 1
  | none => 0

def nowUnix : AuthM Int := ExceptT.mk (.wall fun secs => .ret (.ok (unixSeconds secs)))

/-- The bytes of a text. -/
def textBytes (cs : List Char) : Bytes := cs.flatMap String.utf8EncodeChar

section

variable (crates : Crates)

def parseJwks (set : JwkSet) : String → Option Bytes :=
  set.keys.foldl
    (fun keys jwk =>
      if jwk.kty ≠ "OKP" ∨ jwk.crv ≠ "Ed25519" then keys
      else
        match crates.decode64 jwk.x.toList with
        | some raw => Function.update keys jwk.kid (some raw)
        | none => keys)
    fun _ => none

def decodeJson {α : Type} (de : Json → Option α) (seg : List Char) : Option α := do
  let bytes ← crates.decode64 seg
  let v ← crates.parseJson bytes
  de v

/-- `.json()` of a response. -/
def decodeBody (body : Bytes) : AuthM JwkSet :=
  okOr (.jwksUnavailable (crates.jsonError body)) ((crates.parseJson body).bind JwkSet.deserialize)

variable (cfg : AuthConfig)

/-- The key in the cache, unless the entry is stale. -/
def cachedKey (kid : String) (cell : Option CachedKeys) (now : Nat) : Option Bytes :=
  cell.bind fun cached =>
    if now - cached.fetchedAt > cfg.cacheTtl then none else cached.keys kid

def cached (kid : String) : AuthM (Option Bytes) :=
  ExceptT.mk (.read fun cell now => .ret (.ok (cachedKey cfg kid cell now)))

def refresh : AuthM Unit := do
  let _url ← okOr (.jwksUnavailable "no url") cfg.jwksUrl
  let body ← fetch
  let set ← decodeBody crates body
  -- the right-hand side of the assignment comes before the lock
  let fetchedAt ← instantNow
  store { keys := parseJwks crates set, fetchedAt }

/-- Look up a key, refreshing the cache when it is missing or stale. -/
def keyFor (kid : String) : AuthM Bytes := do
  match ← cached cfg kid with
  | some k => return k
  | none =>
      refresh crates cfg
      let again ← cached cfg kid
      okOr .unknownKey again

/-- What is checked of the claims, and the caller they are about. -/
def callerOf (claims : Claims) (now : Int) : Except AuthError Caller :=
  if claims.exp ≠ 0 ∧ claims.exp < now then .error .expired
  else if cfg.issuer.all fun expected => claims.iss == expected then
    .ok
      { subject := claims.sub
        tenantId := claims.tenantId.bind crates.parseUuid
        roles := (claims.sx.map Sx.roles).getD [] }
  else .error .issuerMismatch

def verify (token : List Char) : AuthM Caller := do
  match token.splitOn '.' with
  | [h, p, s] =>
      let header ← okOr .malformed (decodeJson crates Header.deserialize h)
      if header.alg ≠ "EdDSA" then throw .badSignature
      else
        let pubkey ← keyFor crates cfg header.kid
        let sig ← okOr .malformed (crates.decode64 s)
        if crates.ed25519 pubkey (textBytes (h ++ '.' :: p)) sig then
          let claims ← okOr .malformed (decodeJson crates Claims.deserialize p)
          let now ← nowUnix
          liftM (callerOf crates cfg claims now)
        else throw .badSignature
  | _ => throw .malformed

end

end OpenGroupware
