import OpenGroupware.Revocation
import OpenGroupware.Text.Base64

/-!
`MockIdp`, the stand-in for the identity provider: its key set and the tokens it
mints. What it mints is verified against what it publishes, in every run of
verifications that share a cache: the caller is exactly the one that was named,
and a token is turned away only because it has expired, comes from another
issuer than is asked for, or its key could not be got.
-/

namespace OpenGroupware

open Timed Serde

/-- Code of other packages that documents are written with. -/
structure MockCrates extends Crates where
  encode64 : Bytes → List Char
  printJson : Json → List Char

/-- A signing key, the id it is published under, and the issuer. -/
structure MockIdp where
  publicKey : Bytes
  sign : Bytes → Bytes
  kid : String
  issuer : String

/-- What a token is minted about. -/
structure Grant where
  subject : String
  tenantId : String
  roles : List String
  ttlSecs : Int

namespace MockIdp

section

variable (idp : MockIdp) (crates : MockCrates)

/-- The document of `jwks_json`. -/
def jwks : Json :=
  .obj [("keys", .arr [.obj [("kty", .str "OKP"), ("crv", .str "Ed25519"), ("use", .str "sig"),
    ("alg", .str "EdDSA"), ("kid", .str idp.kid),
    ("x", .str (String.ofList (crates.encode64 idp.publicKey)))]])]

def jwksJson : List Char := crates.printJson (idp.jwks crates)

def header : Json :=
  .obj [("alg", .str "EdDSA"), ("typ", .str "at+jwt"), ("kid", .str idp.kid)]

def payload (now : Int) (grant : Grant) : Json :=
  .obj [("sub", .str grant.subject), ("iss", .str idp.issuer), ("aud", .arr [.str "sesame-idam"]),
    ("iat", .int now), ("nbf", .int now), ("exp", .int (now + grant.ttlSecs)),
    ("tenant_id", .str grant.tenantId), ("sx", .obj [("roles", .arr (grant.roles.map .str))])]

/-- Mint a signed access token at time `now`. -/
def mint (now : Int) (grant : Grant) : List Char :=
  let h := crates.encode64 (textBytes (crates.printJson idp.header))
  let p := crates.encode64 (textBytes (crates.printJson (idp.payload now grant)))
  let signingInput := h ++ '.' :: p
  signingInput ++ '.' :: crates.encode64 (idp.sign (textBytes signingInput))

end

/-- The other packages read back what they have written, and accept the
signatures of the key pair. -/
structure Conveyed (idp : MockIdp) (crates : MockCrates) (documents : List Json) : Prop where
  base64 : ∀ bytes, crates.decode64 (crates.encode64 bytes) = some bytes
  dotless : ∀ bytes, '.' ∉ crates.encode64 bytes
  json : ∀ v ∈ documents, ∃ v', crates.parseJson (textBytes (crates.printJson v)) = some v' ∧
    Same v v'
  signed : ∀ message, crates.ed25519 idp.publicKey message (idp.sign message) = true

/-! ### Documents read back -/

variable {idp : MockIdp} {crates : MockCrates} {documents : List Json} {now : Int} {grant : Grant}

theorem header_read {v : Json} (h : Same idp.header v) :
    Header.deserialize v = some ⟨"EdDSA", idp.kid⟩ := by
  obtain ⟨given, hgiven, hsame⟩ := fields_same (by simp) h ["alg", "kid"]
  obtain ⟨alg, halg, hstr⟩ := exists_lookup (hsame "alg" (by decide)) rfl
  cases hstr
  obtain ⟨kid, hkid, hstr⟩ := exists_lookup (hsame "kid" (by decide)) rfl
  cases hstr
  simp only [Header.deserialize, hgiven, bind, Option.bind_some, required, halg, hkid, string]
  rfl

/-- The claims of a token. -/
def claims (idp : MockIdp) (now : Int) (grant : Grant) : Claims where
  sub := grant.subject
  exp := now + grant.ttlSecs
  iss := idp.issuer
  tenantId := some grant.tenantId
  sx := some ⟨grant.roles⟩

theorem roles_read {v : Json} (h : Same (.obj [("roles", .arr (grant.roles.map .str))]) v) :
    Sx.deserialize v = some ⟨grant.roles⟩ := by
  obtain ⟨given, hgiven, hsame⟩ := fields_same (by simp) h ["roles"]
  obtain ⟨roles, hroles, harr⟩ := exists_lookup (hsame "roles" (by decide)) rfl
  obtain rfl := harr.strings
  have hstrings : elements string (grant.roles.map .str) = some grant.roles := by
    rw [elements_eq_some, List.map_map]
    rfl
  simp only [Sx.deserialize, hgiven, bind, Option.bind_some, defaulted, hroles, vec, hstrings]
  rfl

theorem payload_read {v : Json}
    (hexp : -2 ^ 63 ≤ now + grant.ttlSecs ∧ now + grant.ttlSecs < 2 ^ 63)
    (h : Same (idp.payload now grant) v) :
    Claims.deserialize v = some (idp.claims now grant) := by
  obtain ⟨given, hgiven, hsame⟩ :=
    fields_same (by simp) h ["sub", "exp", "iss", "tenant_id", "sx"]
  obtain ⟨sub, hsub, hstr⟩ := exists_lookup (hsame "sub" (by decide)) rfl
  cases hstr
  obtain ⟨exp, hexp', hint⟩ := exists_lookup (hsame "exp" (by decide)) rfl
  cases hint
  obtain ⟨iss, hiss, hstr⟩ := exists_lookup (hsame "iss" (by decide)) rfl
  cases hstr
  obtain ⟨tenant, htenant, hstr⟩ := exists_lookup (hsame "tenant_id" (by decide)) rfl
  cases hstr
  obtain ⟨sx, hsx, hobj⟩ := exists_lookup (hsame "sx" (by decide)) rfl
  have hroles : option Sx.deserialize sx = some (some ⟨grant.roles⟩) := by
    have hread := roles_read hobj
    cases hobj
    simp only [option, hread]
    rfl
  have hname : option string (.str grant.tenantId) = some (some grant.tenantId) := rfl
  simp only [Claims.deserialize, hgiven, bind, Option.bind_some, defaulted, hsub, hexp', hiss,
    htenant, hname, hsx, hroles, string, i64, if_pos hexp]
  rfl

/-- The key set a verifier reads. -/
def jwkSet (idp : MockIdp) (crates : MockCrates) : JwkSet :=
  ⟨[⟨idp.kid, String.ofList (crates.encode64 idp.publicKey), "OKP", "Ed25519"⟩]⟩

theorem jwks_read {v : Json} (h : Same (idp.jwks crates) v) :
    JwkSet.deserialize v = some (idp.jwkSet crates) := by
  obtain ⟨given, hgiven, hsame⟩ := fields_same (by simp) h ["keys"]
  obtain ⟨keys, hkeys, harr⟩ := exists_lookup (hsame "keys" (by decide)) rfl
  cases harr with
  | arr hvs =>
      cases hvs with
      | cons hjwk hnil =>
          cases hnil
          obtain ⟨entry, hentry, hfields⟩ := fields_same (by simp) hjwk ["kid", "x", "kty", "crv"]
          obtain ⟨kid, hkid, hstr⟩ := exists_lookup (hfields "kid" (by decide)) rfl
          cases hstr
          obtain ⟨x, hx, hstr⟩ := exists_lookup (hfields "x" (by decide)) rfl
          cases hstr
          obtain ⟨kty, hkty, hstr⟩ := exists_lookup (hfields "kty" (by decide)) rfl
          cases hstr
          obtain ⟨crv, hcrv, hstr⟩ := exists_lookup (hfields "crv" (by decide)) rfl
          cases hstr
          simp only [JwkSet.deserialize, hgiven, bind, Option.bind_some, required, hkeys, vec,
            elements, Jwk.deserialize, hentry, hkid, hx, defaulted, hkty, hcrv, string]
          rfl

/-! ### Tokens -/

/-- The three parts of a token. -/
theorem splitOn_mint (now : Int) (grant : Grant) (h : idp.Conveyed crates documents) : ∃ hd p s,
    (idp.mint crates now grant).splitOn '.' = [hd, p, s] ∧
      hd = crates.encode64 (textBytes (crates.printJson idp.header)) ∧
      p = crates.encode64 (textBytes (crates.printJson (idp.payload now grant))) ∧
      s = crates.encode64 (idp.sign (textBytes (hd ++ '.' :: p))) := by
  refine ⟨_, _, _, ?_, rfl, rfl, rfl⟩
  have hmint : idp.mint crates now grant = ['.'].intercalate
      [crates.encode64 (textBytes (crates.printJson idp.header)),
        crates.encode64 (textBytes (crates.printJson (idp.payload now grant))),
        crates.encode64 (idp.sign (textBytes
          (crates.encode64 (textBytes (crates.printJson idp.header)) ++
            '.' :: crates.encode64 (textBytes (crates.printJson (idp.payload now grant))))))] := by
    simp [mint, List.intercalate, List.intersperse]
  rw [hmint, List.splitOn_intercalate '.' (by simp [h.dotless]) (by simp)]

theorem decodeJson_encoded {α : Type} {v : Json} {de : Json → Option α} {a : α}
    (h : idp.Conveyed crates documents) (hv : v ∈ documents) (hread : ∀ v', Same v v' →
      de v' = some a) :
    decodeJson crates.toCrates de (crates.encode64 (textBytes (crates.printJson v))) = some a := by
  obtain ⟨v', hparse, hsame⟩ := h.json v hv
  simp only [decodeJson, h.base64, hparse, bind, Option.bind_some]
  exact hread v' hsame

theorem jwksJson_read (h : idp.Conveyed crates documents) (hjwks : idp.jwks crates ∈ documents) :
    (crates.parseJson (textBytes (idp.jwksJson crates))).bind JwkSet.deserialize =
      some (idp.jwkSet crates) := by
  obtain ⟨v', hparse, hsame⟩ := h.json _ hjwks
  rw [jwksJson, hparse, Option.bind_some, jwks_read hsame]

/-- The key that is published. -/
theorem parseJwks_jwkSet (h : idp.Conveyed crates documents) :
    parseJwks crates.toCrates (idp.jwkSet crates) idp.kid = some idp.publicKey := by
  rw [jwkSet, parseJwks_eq, List.foldl_cons, List.foldl_nil, addJwk, Jwk.raw?, if_neg (by simp)]
  simp only [String.toList_ofList, h.base64]
  exact Function.update_self _ _ _

/-! ### Runs -/

/-- Everything that is served is the document of the provider, and the wall clock
shows one of `readings`. -/
def contract (idp : MockIdp) (crates : MockCrates) (readings : Option Nat → Prop) :
    Timed.Contract CachedKeys Bytes where
  cell entry := entry.keys idp.kid = some idp.publicKey
  serve body _ := body = textBytes (idp.jwksJson crates)
  arrive _ _ := True
  stamp _ _ := True
  wall n := readings n

theorem vouches (cfg : AuthConfig) (readings : Option Nat → Prop)
    (h : idp.Conveyed crates documents) (hjwks : idp.jwks crates ∈ documents) (t : Nat) :
    Vouches crates.toCrates cfg (idp.contract crates readings)
      (fun kid key => kid = idp.kid → key = idp.publicKey) t where
  cached := by
    rintro entry now _ key hentry - hfound rfl
    rw [cachedKey, Option.bind_some] at hfound
    split at hfound
    · cases hfound
    · exact Option.some.inj (hfound.symm.trans hentry)
  fetched := by
    rintro _ served now set rfl - - - hset
    obtain rfl := Option.some.inj ((jwksJson_read h hjwks).symm.trans hset)
    exact parseJwks_jwkSet h

end MockIdp

/-- The key of a token could not be got. -/
inductive AuthError.KeyMissing : AuthError → Prop
  | unknown : KeyMissing .unknownKey
  | unavailable (message : String) : KeyMissing (.jwksUnavailable message)

section

variable {crates : Crates} {cfg : AuthConfig} {c : Timed.Contract CachedKeys Bytes}
  {offered : String → Bytes → Prop} {got : Option (Bytes × Nat)} {t : Nat}

theorem meets_okOr_error {α : Type} {e : AuthError} {x : Option α} :
    Meets c (fun _ _ r => ∀ e', r = .error e' → e' = e) got t (okOr e x).run := by
  cases x with
  | some a => exact fun _ h => nomatch h
  | none => exact fun e' h => (Except.error.inj h).symm

theorem meets_okOr_some {α β : Type} {e : AuthError} {a : α} {f : α → AuthM β}
    {post : Option (Bytes × Nat) → Nat → Except AuthError β → Prop}
    (h : Meets c post got t (f a).run) : Meets c post got t (okOr e (some a) >>= f).run :=
  Meets.run_bind h

/-- A refresh fails for want of a document. -/
theorem meets_refresh_keyMissing (hc : Vouches crates cfg c offered t) :
    Meets c (fun _ _ r => ∀ e, r = .error e → e.KeyMissing) got t (refresh crates cfg).run := by
  unfold refresh
  refine Meets.run_bind ((meets_okOr.and meets_okOr_error).mono fun got₁ t₁ r hr => ?_)
  obtain ⟨⟨-, rfl, -⟩, herror⟩ := hr
  cases r with
  | error e =>
      rintro _ ⟨⟩
      rw [herror e rfl]
      exact .unavailable _
  | ok url =>
      refine ⟨?_, fun body served hserve harrive => ?_⟩
      · rintro reason _ ⟨⟩
        exact .unavailable _
      change Meets c _ _ _ (decodeBody crates body >>= fun set => _).run
      refine Meets.run_bind ((meets_okOr.and meets_okOr_error).mono fun got₂ t₂ r hr => ?_)
      obtain ⟨⟨rfl, rfl, hset⟩, herror⟩ := hr
      cases r with
      | error e =>
          rintro _ ⟨⟩
          rw [herror e rfl]
          exact .unavailable _
      | ok set =>
          intro now hnow hstamp
          exact ⟨hc.fetched body served now set hserve harrive hstamp hnow (hset set rfl),
            fun _ h => nomatch h⟩

theorem meets_keyFor_keyMissing (hc : Vouches crates cfg c offered t) (kid : String) :
    Meets c (fun _ _ r => ∀ e, r = .error e → e.KeyMissing) got t (keyFor crates cfg kid).run := by
  unfold keyFor
  refine Meets.run_bind fun cell now hnow _ => ?_
  simp only [Meets]
  cases cachedKey cfg kid cell now with
  | some key => exact fun _ h => nomatch h
  | none =>
      change Meets c _ _ _ (refresh crates cfg >>= fun _ => _).run
      refine Meets.run_bind ((meets_refresh_keyMissing (hc.later hnow)).mono fun got₁ t₁ r hr => ?_)
      cases r with
      | error e =>
          rintro _ ⟨⟩
          exact hr e rfl
      | ok _ =>
          refine Meets.run_bind fun cell' now' _ _ => ?_
          refine meets_okOr_error.mono fun got₂ t₂ r hr => ?_
          rintro e rfl
          rw [hr e rfl]
          exact .unknown

end

section

variable {idp : MockIdp} {crates : MockCrates} {cfg : AuthConfig} {now : Int} {grant : Grant}
  {readings : Option Nat → Prop}

/-- A minted token is verified as its claims say, unless its key is missing. -/
theorem meets_verify_mint {documents : List Json} (h : idp.Conveyed crates documents)
    (hjwks : idp.jwks crates ∈ documents) (hheader : idp.header ∈ documents)
    (hpayload : idp.payload now grant ∈ documents)
    (hexp : -2 ^ 63 ≤ now + grant.ttlSecs ∧ now + grant.ttlSecs < 2 ^ 63)
    {got : Option (Bytes × Nat)} {t : Nat} :
    Meets (idp.contract crates readings) (fun _ _ r =>
      (∃ secs, readings secs ∧
        r = callerOf crates.toCrates cfg (idp.claims now grant) (unixSeconds secs)) ∨
        ∃ e : AuthError, e.KeyMissing ∧ r = .error e) got t
      (verify crates.toCrates cfg (idp.mint crates now grant)).run := by
  obtain ⟨hd, p, s, hsplit, rfl, rfl, rfl⟩ := MockIdp.splitOn_mint now grant h
  have hdecoded := MockIdp.decodeJson_encoded h hheader fun v hv => MockIdp.header_read hv
  have hclaims := MockIdp.decodeJson_encoded h hpayload fun v hv => MockIdp.payload_read hexp hv
  unfold verify
  rw [hsplit]
  dsimp only
  rw [hdecoded, hclaims, h.base64]
  refine meets_okOr_some ?_
  rw [if_neg (by simp)]
  have hvouches := MockIdp.vouches cfg readings h hjwks t
  refine Meets.run_bind (((meets_keyFor hvouches idp.kid).and
    (meets_keyFor_keyMissing hvouches idp.kid)).mono fun got₁ t₁ r hr => ?_)
  obtain ⟨⟨-, hkey⟩, hmissing⟩ := hr
  cases r with
  | error e => exact .inr ⟨e, hmissing e rfl, rfl⟩
  | ok key =>
      obtain rfl := hkey key rfl rfl
      refine meets_okOr_some ?_
      rw [if_pos (h.signed _)]
      exact meets_okOr_some fun secs hsecs => .inl ⟨secs, hsecs, rfl⟩

/-- Whatever is served is the provider's document, and the wall clock shows one of
`readings`. -/
def MockIdp.Serves (idp : MockIdp) (crates : MockCrates) (readings : Option Nat → Prop) :
    AuthSys → AuthLabel → Prop
  | _, .act _ (.serve body) => body = textBytes (idp.jwksJson crates)
  | _, .act _ (.clock n) => readings n
  | _, _ => True

theorem MockIdp.contract_allows {σ : AuthSys} {l : AuthLabel}
    (h : idp.Serves crates readings σ l) : (idp.contract crates readings).Allows σ l := by
  cases l with
  | act p a =>
      cases a with
      | serve body => exact h
      | deliver => exact fun _ _ _ _ => trivial
      | stamp => exact fun _ _ => trivial
      | clock n => exact h
      | look | lose | put => trivial
  | tick | spawn | reply | cancel => trivial

end

/-! ### A token of the sample key -/

def mockHeaderText : List Char :=
  "\x7b\"alg\":\"EdDSA\",\"kid\":\"k1\",\"typ\":\"at+jwt\"\x7d".toList

def mockPayloadText : List Char :=
  "\x7b\"aud\":[\"sesame-idam\"],\"exp\":1300,\"iat\":1000,\"iss\":\"https://idam.e".toList ++
    "xample\",\"nbf\":1000,\"sub\":\"ann\",\"sx\":\x7b\"roles\":[\"admin\"]\x7d,\"ten".toList ++
    "ant_id\":\"00000000-0000-0000-0000-000000000002\"\x7d".toList

def mockJwksText : List Char :=
  "\x7b\"keys\":[\x7b\"alg\":\"EdDSA\",\"crv\":\"Ed25519\",\"kid\":\"k1\",\"kty\":".toList ++
    "\"OKP\",\"use\":\"sig\",\"x\":\"A6EHv_POEL4dcN0Y50vAmWfk1jCbpQ1fHdyGZBJVMbg\"".toList ++
    "\x7d]\x7d".toList

def mockSigned : List Char :=
  "eyJhbGciOiJFZERTQSIsImtpZCI6ImsxIiwidHlwIjoiYXQrand0In0.eyJhdWQiOlsic2VzYW1lLWlk".toList ++
    "YW0iXSwiZXhwIjoxMzAwLCJpYXQiOjEwMDAsImlzcyI6Imh0dHBzOi8vaWRhbS5leGFtcGxlIiwibmJm".toList ++
    "IjoxMDAwLCJzdWIiOiJhbm4iLCJzeCI6eyJyb2xlcyI6WyJhZG1pbiJdfSwidGVuYW50X2lkIjoiMDAw".toList ++
    "MDAwMDAtMDAwMC0wMDAwLTAwMDAtMDAwMDAwMDAwMDAyIn0".toList

/-- The signature of `mockSigned` under the sample key. -/
def mockSignature : Bytes :=
  [145, 59, 215, 91, 20, 40, 23, 102, 246, 1, 215, 33, 210, 73, 9, 95, 50, 250, 11, 135, 249, 211,
    112, 110, 188, 78, 114, 188, 145, 255, 26, 177, 74, 131, 118, 245, 141, 188, 137, 176, 79, 83,
    236, 142, 253, 165, 228, 171, 183, 82, 153, 239, 227, 69, 193, 213, 226, 232, 203, 177, 32,
    229, 64, 15]

def mockIdp : MockIdp where
  publicKey := samplePublicKey
  sign message := if message = textBytes mockSigned then mockSignature else []
  kid := "k1"
  issuer := "https://idam.example"

def mockGrant : Grant :=
  ⟨"ann", "00000000-0000-0000-0000-000000000002", ["admin"], 300⟩

/-- The three documents as they are read back: names are printed in alphabetical
order. -/
def mockHeader : Json :=
  .obj [("alg", .str "EdDSA"), ("kid", .str "k1"), ("typ", .str "at+jwt")]

def mockPayload : Json :=
  .obj [("aud", .arr [.str "sesame-idam"]), ("exp", .int 1300), ("iat", .int 1000),
    ("iss", .str "https://idam.example"), ("nbf", .int 1000), ("sub", .str "ann"),
    ("sx", .obj [("roles", .arr [.str "admin"])]),
    ("tenant_id", .str "00000000-0000-0000-0000-000000000002")]

def mockJwks : Json :=
  .obj [("keys", .arr [.obj [("alg", .str "EdDSA"), ("crv", .str "Ed25519"), ("kid", .str "k1"),
    ("kty", .str "OKP"), ("use", .str "sig"),
    ("x", .str "A6EHv_POEL4dcN0Y50vAmWfk1jCbpQ1fHdyGZBJVMbg")]])]

/-- The other packages, as far as the three documents go. -/
def mockCrates : MockCrates where
  encode64 := Base64.encode
  decode64 := Base64.decode
  printJson
    | .obj (("alg", _) :: _) => mockHeaderText
    | .obj (("sub", _) :: _) => mockPayloadText
    | .obj (("keys", _) :: _) => mockJwksText
    | _ => []
  parseJson bytes :=
    if bytes = textBytes mockHeaderText then some mockHeader
    else if bytes = textBytes mockPayloadText then some mockPayload
    else if bytes = textBytes mockJwksText then some mockJwks
    else none
  jsonError _ := "error decoding response body"
  ed25519 key message sig := decide (key = samplePublicKey ∧ sig = mockIdp.sign message)
  parseUuid text :=
    if text = "00000000-0000-0000-0000-000000000002" then some ⟨2⟩ else none

theorem mock_parse : mockCrates.parseJson (textBytes mockHeaderText) = some mockHeader ∧
    mockCrates.parseJson (textBytes mockPayloadText) = some mockPayload ∧
    mockCrates.parseJson (textBytes mockJwksText) = some mockJwks := by
  have hpayload : textBytes mockPayloadText ≠ textBytes mockHeaderText := by decide +kernel
  have hjwks : textBytes mockJwksText ≠ textBytes mockHeaderText ∧
      textBytes mockJwksText ≠ textBytes mockPayloadText := by decide +kernel
  unfold mockCrates
  dsimp only
  rw [if_pos rfl, if_neg hpayload, if_pos rfl, if_neg hjwks.1, if_neg hjwks.2, if_pos rfl]
  exact ⟨rfl, rfl, rfl⟩

/-- Members in the order of `names`. -/
theorem perm_members {ms : List (String × Json)} (names names' : List String)
    (hms : ms = names.map fun name => (name, (ms.lookup name).getD .null))
    (h : names.Perm names') :
    ms.Perm (names'.map fun name => (name, (ms.lookup name).getD .null)) := by
  have hmap := h.map fun name => (name, (ms.lookup name).getD .null)
  rwa [← hms] at hmap

theorem mockIdp_conveyed : mockIdp.Conveyed mockCrates
    [mockIdp.jwks mockCrates, mockIdp.header, mockIdp.payload 1000 mockGrant] where
  base64 := Base64.decode_encode
  dotless bytes h := absurd (Base64.isSome_of_mem_encode h) (by decide)
  json := by
    obtain ⟨hheader, hpayload, hjwks⟩ := mock_parse
    intro v hv
    simp only [List.mem_cons, List.not_mem_nil, or_false] at hv
    rcases hv with rfl | rfl | rfl
    · have hx : String.ofList (Base64.encode samplePublicKey) =
          "A6EHv_POEL4dcN0Y50vAmWfk1jCbpQ1fHdyGZBJVMbg" := by
        decide +kernel
      refine ⟨mockJwks, hjwks, ?_⟩
      change Same (.obj [("keys", .arr [.obj [("kty", .str "OKP"), ("crv", .str "Ed25519"),
        ("use", .str "sig"), ("alg", .str "EdDSA"), ("kid", .str "k1"),
        ("x", .str (String.ofList (Base64.encode samplePublicKey)))]])]) mockJwks
      rw [hx]
      refine .member "keys" (.arr (.cons (.perm ?_) .nil))
      exact perm_members ["kty", "crv", "use", "alg", "kid", "x"]
        ["alg", "crv", "kid", "kty", "use", "x"] rfl (by decide)
    · exact ⟨mockHeader, hheader, .perm (.cons _ (.swap _ _ _))⟩
    · refine ⟨mockPayload, hpayload, .perm ?_⟩
      exact perm_members ["sub", "iss", "aud", "iat", "nbf", "exp", "tenant_id", "sx"]
        ["aud", "exp", "iat", "iss", "nbf", "sub", "sx", "tenant_id"] rfl (by decide)
  signed message := decide_eq_true ⟨rfl, rfl⟩

/-- The token of `mockGrant`. -/
def mockToken : List Char := mockIdp.mint mockCrates 1000 mockGrant

def mockConfig : AuthConfig :=
  ⟨some "http://127.0.0.1:8080/.well-known/jwks.json", some "https://idam.example", 600⟩

/-- A verification whose fetch is lost, and one that gets the key. -/
def mockRun : List AuthLabel :=
  [.spawn 0 mockToken, .act 0 .look, .spawn 1 mockToken, .act 1 .look,
    .act 0 (.lose "connection refused"), .reply 0, .act 1 (.serve (textBytes mockJwksText)),
    .act 1 .deliver, .act 1 .stamp, .act 1 .put, .act 1 .look, .act 1 (.clock (some 1100)),
    .reply 1]

def servesMock (_ : AuthSys) : AuthLabel → Bool
  | .act _ (.serve body) => decide (body = textBytes mockJwksText)
  | .act _ (.clock n) => decide (n = some 1100)
  | _ => true

theorem serves_of_servesMock {σ : AuthSys} {l : AuthLabel} (h : servesMock σ l = true) :
    mockIdp.Serves mockCrates (· = some 1100) σ l := by
  cases l with
  | act p a =>
      cases a with
      | serve body =>
          have hbody : body = textBytes mockJwksText := of_decide_eq_true h
          exact hbody
      | clock n =>
          have hn : n = some 1100 := of_decide_eq_true h
          exact hn
      | look | lose | deliver | stamp | put => trivial
  | tick | spawn | reply | cancel => trivial

/-! ### Verdicts -/

section

variable {idp : MockIdp} {crates : MockCrates} {cfg : AuthConfig} {now : Int} {grant : Grant}

/-- Among any other verifications, a minted token is answered by its claims and
one of the readings of the wall clock, unless its key cannot be got. -/
theorem minted_verdicts {σ : AuthSys} {readings : Option Nat → Prop}
    (hconveyed : idp.Conveyed crates [idp.jwks crates, idp.header, idp.payload now grant])
    (hexp : -2 ^ 63 ≤ now + grant.ttlSecs ∧ now + grant.ttlSecs < 2 ^ 63)
    (h : Timed.Reached (verification crates.toCrates cfg) (idp.Serves crates readings) σ) :
    ∀ reply ∈ σ.replies, reply.job = idp.mint crates now grant →
      (∃ secs, readings secs ∧ reply.answer =
        callerOf crates.toCrates cfg (idp.claims now grant) (unixSeconds secs)) ∨
      ∃ e : AuthError, e.KeyMissing ∧ reply.answer = .error e := by
  have hmeets : ∀ (token : List Char) (since : Nat), Meets (idp.contract crates readings)
      (fun _ _ r => token = idp.mint crates now grant →
        (∃ secs, readings secs ∧
          r = callerOf crates.toCrates cfg (idp.claims now grant) (unixSeconds secs)) ∨
          ∃ e : AuthError, e.KeyMissing ∧ r = .error e) none since
      (verification crates.toCrates cfg token) := by
    intro token since
    by_cases htoken : token = idp.mint crates now grant
    · rw [htoken]
      exact (meets_verify_mint hconveyed (by simp) (by simp) (by simp) hexp).mono
        fun _ _ _ hr _ => hr
    · exact (meets_verify (MockIdp.vouches cfg readings hconveyed (by simp) since) token).mono
        fun _ _ _ _ hmint => absurd hmint htoken
  have hholds := Timed.Reached.holds hmeets (h.mono fun _ _ => MockIdp.contract_allows)
  intro reply hreply hjob
  obtain ⟨-, -, hpost⟩ := hholds.replies reply hreply
  exact hpost hjob

theorem minted_verdicts_mockRun :
    ∃ σ : AuthSys, replay (verification mockCrates.toCrates mockConfig) servesMock mockRun .init =
        some σ ∧
      σ.replies.map (fun reply => reply.answer.isOk) = [false, true] ∧
      ∀ reply ∈ σ.replies, reply.job = mockIdp.mint mockCrates 1000 mockGrant →
        (∃ secs, secs = some 1100 ∧ reply.answer = callerOf mockCrates.toCrates mockConfig
          (mockIdp.claims 1000 mockGrant) (unixSeconds secs)) ∨
        ∃ e : AuthError, e.KeyMissing ∧ reply.answer = .error e := by
  have hreplay : (replay (verification mockCrates.toCrates mockConfig) servesMock mockRun .init).any
      (fun σ => decide (σ.replies.map (fun reply => reply.answer.isOk) =
        [false, true])) = true := by
    decide +kernel
  obtain ⟨σ, hσ, hreplies⟩ := (Option.any_eq_true _ _).1 hreplay
  exact ⟨σ, hσ, of_decide_eq_true hreplies, minted_verdicts mockIdp_conveyed (by decide)
    (Timed.Reached.replay .init (fun _ _ => serves_of_servesMock) hσ)⟩

/-! ### Alone -/

section

variable {w : Surroundings CachedKeys Bytes} {v : Option CachedKeys}

theorem solo_okOr_some {α β : Type} {e : AuthError} {a : α} {f : α → AuthM β} {n : Nat} :
    solo w (okOr e (some a) >>= f).run v n = solo w (f a).run v n := rfl

/-- What is minted and what is published fit together: a lookup that finds no
other key in the cache, and that looks again in time, verifies the token to
exactly what its claims say. -/
theorem minted_verified
    (hconveyed : idp.Conveyed crates [idp.jwks crates, idp.header, idp.payload now grant])
    (hexp : -2 ^ 63 ≤ now + grant.ttlSecs ∧ now + grant.ttlSecs < 2 ^ 63)
    (hurl : cfg.jwksUrl.isSome = true)
    (hfound : ∀ key, cachedKey cfg idp.kid (w.found 0 v) (w.time 0) = some key →
      key = idp.publicKey)
    (hanswer : w.answer 1 = .ok (textBytes (idp.jwksJson crates)))
    (hagain : ∀ e, w.found 4 (some e) = some e) (htime : w.time 4 - w.time 2 ≤ cfg.cacheTtl)
    {secs : Option Nat} (hwall : ∀ n, w.wall n = secs) :
    (solo w (verify crates.toCrates cfg (idp.mint crates now grant)).run v 0).1 =
      callerOf crates.toCrates cfg (idp.claims now grant) (unixSeconds secs) := by
  have hoffered : Offered crates.toCrates cfg w v idp.kid idp.publicKey := by
    cases hfirst : cachedKey cfg idp.kid (w.found 0 v) (w.time 0) with
    | some key => exact .cached (hfound key hfirst ▸ hfirst)
    | none =>
        obtain ⟨url, hurl⟩ := Option.isSome_iff_exists.1 hurl
        have hset : fetchedSet crates.toCrates cfg (w.answer 1) = .ok (idp.jwkSet crates) := by
          simp only [fetchedSet, hurl, hanswer, MockIdp.jwksJson_read hconveyed (by simp)]
        refine .fetched hfirst hset ?_
        rw [hagain, cachedKey, Option.bind_some, if_neg (Nat.not_lt.2 htime)]
        exact MockIdp.parseJwks_jwkSet hconveyed
  obtain ⟨hd, p, s, hsplit, rfl, rfl, rfl⟩ := MockIdp.splitOn_mint now grant hconveyed
  have hheader := MockIdp.decodeJson_encoded hconveyed (v := idp.header) (by simp)
    fun v hv => MockIdp.header_read hv
  have hclaims := MockIdp.decodeJson_encoded hconveyed (v := idp.payload now grant) (by simp)
    fun v hv => MockIdp.payload_read hexp hv
  unfold verify
  rw [hsplit]
  dsimp only
  rw [hheader, hclaims, hconveyed.base64, solo_okOr_some, if_neg (by simp), solo_run_bind]
  rcases hrun : solo w (keyFor crates.toCrates cfg idp.kid).run v 0 with ⟨r, v₁, n₁⟩
  have hr := keyFor_ok_iff.2 hoffered
  rw [hrun] at hr
  obtain rfl : r = .ok idp.publicKey := hr
  dsimp only
  rw [solo_okOr_some, if_pos (hconveyed.signed _), solo_okOr_some, ← hwall n₁]
  rfl

end

/-- The provider answers at once, and no time passes. -/
def mockWorld : Surroundings CachedKeys Bytes :=
  ⟨fun _ => 0, fun _ v => v, fun _ => .ok (textBytes mockJwksText), fun _ => some 1100⟩

theorem minted_verified_mockWorld :
    (solo mockWorld (verify mockCrates.toCrates mockConfig
        (mockIdp.mint mockCrates 1000 mockGrant)).run none 0).1 =
      callerOf mockCrates.toCrates mockConfig (mockIdp.claims 1000 mockGrant)
        (unixSeconds (some 1100)) :=
  minted_verified mockIdp_conveyed (by decide) rfl (by rintro key ⟨⟩) rfl (fun _ => rfl)
    (by decide) fun _ => rfl

end

end OpenGroupware
