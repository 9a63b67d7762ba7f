import OpenGroupware.Jwks

/-!
Revocation of keys. A cached key is dropped once its entry is older than the
cache lifetime, and the age of an entry is counted from the moment it is
stored. A document that was on its way for long is therefore kept for longer
than its contents deserve.
-/

namespace OpenGroupware

open Timed Serde

/-! ### Runs of verifications -/

/-- A token whose signature under `kid` is one of `key` alone. -/
def SignedWith (crates : Crates) (kid : String) (key : Bytes) (token : List Char) : Prop :=
  ∃ h p s header sig, token.splitOn '.' = [h, p, s] ∧
    decodeJson crates Header.deserialize h = some header ∧ header.kid = kid ∧
    crates.decode64 s = some sig ∧
    ∀ key', crates.ed25519 key' (textBytes (h ++ '.' :: p)) sig = true ↔ key' = key

/-- Verifications that share the cache, and the provider they ask. -/
abbrev AuthSys : Type := Sys CachedKeys Bytes (List Char) (Except AuthError Caller)

abbrev AuthLabel : Type := Label Bytes (List Char)

def verification (crates : Crates) (cfg : AuthConfig) (token : List Char) :
    AuthProgram (Except AuthError Caller) :=
  (verify crates cfg token).run

/-- From `r` on the provider does not serve `key` under `kid`. -/
def Revoked (crates : Crates) (kid : String) (key : Bytes) (r : Nat) (σ : AuthSys) :
    AuthLabel → Prop
  | .act _ (.serve body) => r ≤ σ.now → ¬Publishes crates body kid key
  | _ => True

/-- No verification that starts a cache lifetime after `r` has accepted a token
signed with `key` under `kid`. -/
def RevocationEffective (crates : Crates) (cfg : AuthConfig) (kid : String) (key : Bytes)
    (r : Nat) (σ : AuthSys) : Prop :=
  ∀ reply ∈ σ.replies, r + cfg.cacheTtl < reply.since → SignedWith crates kid key reply.job →
    ∀ caller, reply.answer ≠ .ok caller

/-- A document that is read as one with `key` under `kid`. -/
def Yields (crates : Crates) (body : Bytes) (kid : String) (key : Bytes) : Prop :=
  ∃ set, (crates.parseJson body).bind JwkSet.deserialize = some set ∧
    parseJwks crates set kid = some key

/-- What was served before `r` with `key` under `kid` gets its time by `r`. -/
def Prompt (crates : Crates) (kid : String) (key : Bytes) (r : Nat) (σ : AuthSys) :
    AuthLabel → Prop
  | .act p .stamp => ∀ P, σ.procs p = some P → ∀ body served, P.got = some (body, served) →
      served < r → r < σ.now → ¬Yields crates body kid key
  | _ => True

/-! ### The contract of a revocation -/

/-- Entries with the key are from `r` at the latest. -/
def revocation (crates : Crates) (kid : String) (key : Bytes) (r : Nat) :
    Contract CachedKeys Bytes where
  cell entry := entry.keys kid = some key → entry.fetchedAt ≤ r
  serve body now := r ≤ now → ¬Publishes crates body kid key
  arrive _ _ := True
  stamp got now := ∀ body served, got = some (body, served) → served < r → r < now →
    ¬Yields crates body kid key
  wall _ := True

section

variable {crates : Crates} {cfg : AuthConfig} {kid : String} {key : Bytes} {r : Nat}

theorem revocation_allows {σ : AuthSys} {l : AuthLabel} (hrevoked : Revoked crates kid key r σ l)
    (hprompt : Prompt crates kid key r σ l) : (revocation crates kid key r).Allows σ l := by
  cases l with
  | act p a =>
      cases a with
      | serve body => exact hrevoked
      | stamp => exact hprompt
      | deliver => exact fun _ _ _ _ => trivial
      | look | lose | put | clock => trivial
  | tick | spawn | reply | cancel => trivial

/-- A cache lifetime after `r` no lookup of the id finds the key. -/
theorem vouches_revocation (cfg : AuthConfig) (since : Nat) :
    Vouches crates cfg (revocation crates kid key r)
      (fun kid' key' => r + cfg.cacheTtl < since → kid' = kid → key' ≠ key) since := by
  constructor
  · rintro entry now _ _ hentry hnow hfound hlate rfl rfl
    rw [cachedKey, Option.bind_some] at hfound
    split at hfound
    · cases hfound
    · rename_i hfresh
      have hfetched : entry.fetchedAt ≤ r := hentry hfound
      omega
  · intro body served now set hserve _ hstamp _ hset hkey
    have hyields : Yields crates body kid key := ⟨set, hset, hkey⟩
    have hserved : served < r := by
      by_contra hlater
      exact hserve (Nat.not_lt.1 hlater) (publishes_of_parseJwks hset hkey)
    by_contra hlater
    exact hstamp body served rfl hserved (Nat.not_le.1 hlater) hyields

/-- A genuine token that was signed with the key is genuine by this key. -/
theorem offered_of_signedWith {offered : String → Bytes → Prop} {token : List Char}
    {claims : Claims} (hsigned : SignedWith crates kid key token)
    (hgenuine : Genuine crates offered token claims) : offered kid key := by
  obtain ⟨h, p, s, header, sig, hsplit, hheader, hkid, hsig, hkey⟩ := hsigned
  obtain ⟨h', p', s', header', key', sig', hsplit', hheader', -, hoffered, hsig', hverifies, -⟩ :=
    hgenuine
  obtain ⟨rfl, rfl, rfl⟩ : h = h' ∧ p = p' ∧ s = s' := by
    simpa using hsplit.symm.trans hsplit'
  obtain rfl := Option.some.inj (hheader.symm.trans hheader')
  obtain rfl := Option.some.inj (hsig.symm.trans hsig')
  obtain rfl := (hkey key').1 hverifies
  rw [← hkid]
  exact hoffered

end

/-- In every run in which no document is too long on its way, a revocation takes
effect within the cache lifetime. -/
theorem revocation_effective {crates : Crates} {cfg : AuthConfig} {kid : String} {key : Bytes}
    {r : Nat} {σ : AuthSys}
    (h : Timed.Reached (verification crates cfg)
      (fun σ l => Revoked crates kid key r σ l ∧ Prompt crates kid key r σ l) σ) :
    RevocationEffective crates cfg kid key r σ := by
  have hreached := h.mono fun σ l hl => revocation_allows hl.1 hl.2
  have hholds := Timed.Reached.holds (fun token since =>
    meets_verify (vouches_revocation cfg since) token) hreached
  intro reply hreply hlate hsigned caller hok
  obtain ⟨-, -, hpost⟩ := hholds.replies reply hreply
  obtain ⟨claims, secs, hgenuine, -⟩ := hpost caller hok
  exact offered_of_signedWith hsigned hgenuine hlate rfl rfl

/-! ### A response that takes its time -/

/-- The provider serves documents before `r` only. -/
def servesBefore (r : Nat) (σ : AuthSys) : AuthLabel → Bool
  | .act _ (.serve _) => decide (σ.now < r)
  | _ => true

theorem revoked_of_servesBefore {crates : Crates} {kid : String} {key : Bytes} {r : Nat}
    {σ : AuthSys} {l : AuthLabel} (h : servesBefore r σ l = true) :
    Revoked crates kid key r σ l := by
  cases l with
  | act p a =>
      cases a with
      | serve body => exact fun hlater => absurd (of_decide_eq_true h) (Nat.not_lt.2 hlater)
      | look | lose | deliver | stamp | put | clock => trivial
  | tick | spawn | reply | cancel => trivial

/-- Programs read their clock by `r` only. -/
def stampsBy (r : Nat) (σ : AuthSys) : AuthLabel → Bool
  | .act _ .stamp => decide (σ.now ≤ r)
  | _ => true

theorem prompt_of_stampsBy {crates : Crates} {kid : String} {key : Bytes} {r : Nat}
    {σ : AuthSys} {l : AuthLabel} (h : stampsBy r σ l = true) : Prompt crates kid key r σ l := by
  cases l with
  | act p a =>
      cases a with
      | stamp =>
          intro P hP body served hgot hserved hlater
          exact absurd (of_decide_eq_true h) (Nat.not_le.2 hlater)
      | look | serve | lose | deliver | put | clock => trivial
  | tick | spawn | reply | cancel => trivial

/-- The document with the sample key is served at once, but arrives after a long
time; a second verification then finds the key. -/
def slowRun : List AuthLabel :=
  [.spawn 0 sampleToken, .act 0 .look, .act 0 (.serve loneBody), .tick 1000,
    .act 0 .deliver, .act 0 .stamp, .act 0 .put, .spawn 1 sampleToken, .act 1 .look,
    .act 1 (.clock (some 0)), .reply 1]

/-- The document arrives at once; a verification after a long time asks for
another one and gets none. -/
def quickRun : List AuthLabel :=
  [.spawn 0 sampleToken, .act 0 .look, .act 0 (.serve loneBody), .act 0 .deliver,
    .act 0 .stamp, .act 0 .put, .tick 1000, .spawn 1 sampleToken, .act 1 .look,
    .act 1 (.lose "connection refused"), .reply 1]

theorem sampleToken_signedWith :
    SignedWith publishingCrates "k1" samplePublicKey sampleToken := by
  have hheader : (decodeJson publishingCrates Header.deserialize
      sampleHeader64).any
        (fun header => decide (header.kid = "k1")) = true := by
    decide +kernel
  obtain ⟨header, hdecoded, hkid⟩ := (Option.any_eq_true _ _).1 hheader
  refine ⟨_, samplePayload64, sampleSignature64, header, sampleSignature, ?_,
    hdecoded, of_decide_eq_true hkid, ?_, fun key' => ?_⟩
  · decide +kernel
  · decide +kernel
  · have hmessage : textBytes (sampleHeader64 ++
        '.' :: samplePayload64) = textBytes sampleSigned := by
      decide +kernel
    rw [hmessage]
    change decide (key' = samplePublicKey ∧ _ ∧ _) = true ↔ _
    rw [decide_eq_true_iff]
    exact ⟨fun h => h.1, fun h => ⟨h, rfl, rfl⟩⟩

theorem slowRun_accepts :
    (replay (verification publishingCrates sampleConfig) (servesBefore 1) slowRun .init).any
      (fun σ => σ.replies.any fun reply => decide (601 < reply.since) &&
        decide (reply.job = sampleToken) && reply.answer.isOk) = true := by
  decide +kernel

/-- The key is revoked at time 1, and accepted at time 1000. -/
theorem revoked_key_accepted :
    ¬∀ σ : AuthSys, Timed.Reached (verification publishingCrates sampleConfig)
      (Revoked publishingCrates "k1" samplePublicKey 1) σ →
        RevocationEffective publishingCrates sampleConfig "k1" samplePublicKey 1 σ := by
  intro h
  obtain ⟨σ, hreplay, hany⟩ := (Option.any_eq_true _ _).1 slowRun_accepts
  obtain ⟨⟨token, since, answer⟩, hreply, hlate⟩ := List.any_eq_true.1 hany
  simp only [Bool.and_eq_true, decide_eq_true_iff] at hlate
  obtain ⟨⟨hsince, htoken⟩, hok⟩ := hlate
  have hsigned : SignedWith publishingCrates "k1" samplePublicKey token := by
    rw [htoken]
    exact sampleToken_signedWith
  have hreached : Timed.Reached (verification publishingCrates sampleConfig)
      (Revoked publishingCrates "k1" samplePublicKey 1) σ :=
    Timed.Reached.replay .init (fun σ l => revoked_of_servesBefore) hreplay
  cases answer with
  | error e => cases hok
  | ok caller => exact h σ hreached _ hreply hsince hsigned caller rfl

theorem quickRun_rejects :
    (replay (verification publishingCrates sampleConfig)
      (fun σ l => servesBefore 1 σ l && stampsBy 1 σ l) quickRun .init).any (fun σ =>
        decide (σ.replies.map (fun reply => (reply.since, reply.answer.isOk)) =
          [(1000, false)])) = true := by
  decide +kernel

theorem revocation_effective_quick :
    ∃ σ : AuthSys, replay (verification publishingCrates sampleConfig)
        (fun σ l => servesBefore 1 σ l && stampsBy 1 σ l) quickRun .init = some σ ∧
      σ.replies.map (fun reply => (reply.since, reply.answer.isOk)) = [(1000, false)] ∧
      RevocationEffective publishingCrates sampleConfig "k1" samplePublicKey 1 σ := by
  obtain ⟨σ, hreplay, hreplies⟩ := (Option.any_eq_true _ _).1 quickRun_rejects
  refine ⟨σ, hreplay, of_decide_eq_true hreplies,
    revocation_effective (Timed.Reached.replay .init (fun σ l hl => ?_) hreplay)⟩
  obtain ⟨hserves, hstamps⟩ := Bool.and_eq_true_iff.1 hl
  exact ⟨revoked_of_servesBefore hserves, prompt_of_stampsBy hstamps⟩

end OpenGroupware
