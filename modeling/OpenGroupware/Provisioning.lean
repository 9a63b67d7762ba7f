import OpenGroupware.Directory
import OpenGroupware.Sesame

/-!
Runs of the sesame client: any number of provisioning calls over one token
cache, with requests and answers that take their time or get lost. A user id
that is returned is what user management answered for that very address; the
secret and the tokens go where they belong; and a token is not used once it has
expired, if the client is not delayed for more than a minute. The services are
taken not to redirect the client.
-/

namespace OpenGroupware

open Remote

section

variable (crates : HttpCrates) (cfg : SesameConfig)

/-- What runs on behalf of a call. -/
def provisionCall (x : ProvisionUser) : SesameProgram (Except ProviderError Uuid) :=
  (provisionUser crates cfg x.email x.displayName).run

abbrev SesameState : Type :=
  Remote.Sys CachedToken HttpCall HttpResponse ProvisionUser (Except ProviderError Uuid)

abbrev SesameEvent : Type := Remote.Label HttpResponse ProvisionUser

/-- The states of all runs of the client in which every step is allowed. -/
abbrev SesameReached (allowed : SesameState → SesameEvent → Prop) (σ : SesameState) : Prop :=
  Remote.Reached (provisionCall crates cfg) allowed σ

/-- No one has been sent elsewhere. -/
def Direct (S : List (Exchange HttpCall HttpResponse)) : Prop :=
  ∀ e ∈ S, e.response.redirects = false

/-- The exchange in which a token was issued. -/
structure Issues (e : Exchange HttpCall HttpResponse) (body : TokenResponse) : Prop where
  request : e.request = tokenRequest cfg
  response : readToken crates e.response = .ok body

/-- The client holds the token at time `t`: it was issued in one of the
exchanges `S`, stored at a time `w` at which it may still be, and is not due for
renewal. -/
def Holding (S : List (Exchange HttpCall HttpResponse))
    (may : Exchange HttpCall HttpResponse → Nat → Prop) (tok : String) (t : Nat) : Prop :=
  ∃ e ∈ S, ∃ body w, Issues crates cfg e body ∧ body.accessToken = tok ∧ may e w ∧ e.time ≤ w ∧
    w ≤ t ∧ t < w + tokenTtl body.expiresIn

/-- What the client keeps to, when the exchanges of the run are `S`, answers of
the token endpoint are stored when they may be, and requests posted when they
may be. -/
def clientContract (S : List (Exchange HttpCall HttpResponse))
    (may : Exchange HttpCall HttpResponse → Nat → Prop) (soon : Nat → Nat → Prop) :
    Remote.Contract CachedToken HttpCall HttpResponse ProvisionUser where
  cell t entry := ∃ e ∈ S, ∃ body w, Issues crates cfg e body ∧
    body.accessToken = entry.accessToken ∧ may e w ∧ e.time ≤ w ∧ w ≤ t ∧
      entry.validUntil = w + tokenTtl body.expiresIn
  later := by
    rintro t t' entry ht ⟨e, he, body, w, hissues, htok, hmay, hle, hw, hvalid⟩
    exact ⟨e, he, body, w, hissues, htok, hmay, hle, Nat.le_trans hw ht, hvalid⟩
  serve x y t := ⟨x, y, t⟩ ∈ S
  put got t := ∀ e, got = some e → may e t
  post := soon
  sends x t' req := req = tokenRequest cfg ∨
    ∃ tok t, Holding crates cfg S may tok t ∧ t ≤ t' ∧ soon t t' ∧
      req = createUserRequest cfg tok x.email x.displayName

end

section

variable {crates : HttpCrates} {cfg : SesameConfig} {S : List (Exchange HttpCall HttpResponse)}
  {may : Exchange HttpCall HttpResponse → Nat → Prop} {soon : Nat → Nat → Prop}
  {x : ProvisionUser} {got : Option (Exchange HttpCall HttpResponse)} {t : Nat}

theorem tokenTtl_pos (expiresIn : Int) : 0 < tokenTtl expiresIn := by
  have hsecs : 0 < (max expiresIn 61 - 60).toNat := by omega
  exact Nat.mul_pos hsecs (by decide)

theorem tokenTtl_eq (expiresIn : Int) :
    (tokenTtl expiresIn : Int) = (max expiresIn 61 - 60) * 1000000000 := by
  have hsecond : second = 1000000000 := rfl
  rw [tokenTtl, hsecond]
  omega

/-- A program that passes a check on without another interaction. -/
theorem meets_lift {α β : Type} {r : Except ProviderError α} {f : α → SesameM β}
    {post : Option (Exchange HttpCall HttpResponse) → Nat → Except ProviderError β → Prop}
    (herr : ∀ e, r = .error e → post got t (.error e))
    (hok : ∀ a, r = .ok a →
      Remote.Meets (clientContract crates cfg S may soon) x post got t (f a).run) :
    Remote.Meets (clientContract crates cfg S may soon) x post got t
      ((liftM r : SesameM α) >>= f).run := by
  refine Remote.Meets.run_bind ?_
  cases r with
  | ok a => exact hok a rfl
  | error e => exact herr e rfl

/-- A response that sends the client nowhere else is handed out. -/
theorem followed_direct {what : String} {again : HttpCall → SesameM HttpResponse}
    {req : HttpCall} {resp : HttpResponse} (h : resp.redirects = false) :
    followed crates what again req resp = pure resp := by
  unfold followed
  rw [crates.redirect_none req resp h]

/-- A request and what follows its answer, if that is no redirect. -/
theorem meets_send {β : Type} {what : String} {req : HttpCall} {f : HttpResponse → SesameM β}
    {post : Option (Exchange HttpCall HttpResponse) → Nat → Except ProviderError β → Prop}
    (hdirect : Direct S)
    (hsends : ∀ t', t ≤ t' → soon t t' → (clientContract crates cfg S may soon).sends x t' req)
    (herr : ∀ e, post got t (.error e))
    (hok : ∀ resp t', t ≤ t' → ⟨req, resp, t'⟩ ∈ S →
      Remote.Meets (clientContract crates cfg S may soon) x post (some ⟨req, resp, t'⟩) t'
        (f resp).run) :
    Remote.Meets (clientContract crates cfg S may soon) x post got t
      (sendPost crates what req >>= f).run := by
  refine Remote.Meets.run_bind ?_
  rw [sendPost, sendFollowing]
  refine Remote.Meets.run_bind ⟨hsends, fun _ => herr _, fun resp t' ht hserve => ?_⟩
  change Remote.Meets _ _ _ _ _ (followed crates what _ req resp).run
  rw [followed_direct (hdirect _ hserve)]
  exact hok resp t' ht hserve

theorem meets_token (hdirect : Direct S) : Remote.Meets (clientContract crates cfg S may soon) x
    (fun _ t r => ∀ tok, r = .ok tok → Holding crates cfg S may tok t) got t
    (token crates cfg).run := by
  unfold token
  refine Remote.Meets.run_bind fun v t' ht hv => ?_
  simp only [Remote.Meets]
  cases hcached : v.filter fun entry => decide (t' < entry.validUntil) with
  | some entry =>
      obtain ⟨rfl, hvalid⟩ := Option.filter_eq_some_iff.1 hcached
      obtain ⟨e, he, body, w, hissues, htok, hmay, hle, hw, hentry⟩ := hv _ rfl
      rw [decide_eq_true_eq, hentry] at hvalid
      rintro _ ⟨⟩
      exact ⟨e, he, body, w, hissues, htok, hmay, hle, hw, hvalid⟩
  | none =>
      refine meets_send hdirect (fun _ _ _ => .inl rfl) (fun _ _ h => nomatch h)
        fun resp t' ht hserve => ?_
      refine meets_lift (fun _ _ _ h => nomatch h) fun body hbody => ?_
      refine Remote.Meets.run_bind fun w hw hmay => ?_
      have hissues : Issues crates cfg ⟨tokenRequest cfg, resp, t'⟩ body := ⟨rfl, hbody⟩
      refine ⟨⟨_, hserve, body, w, hissues, rfl, hmay _ rfl, hw, Nat.le_refl w, rfl⟩, ?_⟩
      rintro _ ⟨⟩
      exact ⟨_, hserve, body, w, hissues, rfl, hmay _ rfl, hw, Nat.le_refl w,
        Nat.lt_add_of_pos_right (tokenTtl_pos _)⟩

/-- What a call may return: the user that user management has answered with. -/
def Created (crates : HttpCrates) (cfg : SesameConfig)
    (S : List (Exchange HttpCall HttpResponse))
    (may : Exchange HttpCall HttpResponse → Nat → Prop) (x : ProvisionUser)
    (r : Except ProviderError Uuid) : Prop :=
  ∀ u, r = .ok u → ∃ e ∈ S, ∃ tok t, Holding crates cfg S may tok t ∧ t ≤ e.time ∧
    e.request = createUserRequest cfg tok x.email x.displayName ∧ readUser crates e.response = .ok u

theorem meets_provisionCall (hdirect : Direct S) (x : ProvisionUser) (t : Nat) :
    Remote.Meets (clientContract crates cfg S may soon) x
      (fun _ _ r => Created crates cfg S may x r) none t (provisionCall crates cfg x) := by
  unfold provisionCall provisionUser
  refine Remote.Meets.run_bind ((meets_token hdirect).mono fun got t r hr => ?_)
  cases r with
  | error e => exact fun _ h => nomatch h
  | ok tok =>
      have hold := hr tok rfl
      refine meets_send hdirect (fun t' ht hsoon => .inr ⟨tok, t, hold, ht, hsoon, rfl⟩)
        (fun _ _ h => nomatch h) fun resp t' ht hserve => ?_
      change Remote.Meets _ _ _ _ _ (.ret (readUser crates resp))
      intro u hu
      exact ⟨_, hserve, tok, t, hold, ht, rfl, hu⟩

/-- Answers that do not send the client elsewhere. -/
def Answers (_ : HttpCall) (resp : HttpResponse) : Prop := resp.redirects = false

theorem lift_atMost {α : Type} {φ : HttpCall → Bool} (r : Except ProviderError α) :
    (liftM r : SesameM α).run.AtMost φ Answers 0 :=
  trivial

theorem sendPost_atMost {φ : HttpCall → Bool} {what : String} {req : HttpCall} {n : Nat}
    (h : φ req = true → 1 ≤ n) : (sendPost crates what req).run.AtMost φ Answers n := by
  refine ⟨0, ?_, fun _ => trivial, fun resp hresp => ?_⟩
  · split <;> rename_i hφ
    · exact h hφ
    · exact Nat.zero_le n
  · change (followed crates what _ req resp).run.AtMost φ Answers 0
    rw [followed_direct hresp]
    trivial

/-- A call posts the two requests, each at most once. -/
theorem provisionCall_atMost {φ : HttpCall → Bool} {m n : Nat}
    (hm : φ (tokenRequest cfg) = true → 1 ≤ m)
    (hn : ∀ tok, φ (createUserRequest cfg tok x.email x.displayName) = true → 1 ≤ n) :
    (provisionCall crates cfg x).AtMost φ Answers (m + n) := by
  have token : (token crates cfg).run.AtMost φ Answers (0 + (m + 0)) := by
    refine Prog.AtMost.run_bind (fun _ _ => trivial) fun cached => ?_
    cases cached with
    | some tok => trivial
    | none =>
        refine Prog.AtMost.run_bind (sendPost_atMost hm) fun resp => ?_
        refine Prog.AtMost.run_bind (m := 0) (n := 0) (lift_atMost _) fun body => ?_
        exact Prog.AtMost.run_bind (m := 0) (n := 0) trivial fun _ => trivial
  unfold provisionCall provisionUser
  rw [Nat.zero_add] at token
  refine Prog.AtMost.run_bind token fun tok => ?_
  exact Prog.AtMost.run_bind (sendPost_atMost (hn tok)) fun resp => lift_atMost _

theorem createUserRequest_url_ne (tok email displayName : String) :
    (createUserRequest cfg tok email displayName).url ≠ (tokenRequest cfg).url := by
  intro h
  have hlast := congrArg (fun url => url.toList.getLast?) h
  simp [createUserRequest, tokenRequest, String.toList_append] at hlast

/-- Every run of the client keeps the contract about its own exchanges. -/
theorem client_holds (may : Exchange HttpCall HttpResponse → Nat → Prop)
    (soon : Nat → Nat → Prop) {allowed : SesameState → SesameEvent → Prop} {σ : SesameState}
    (hput : ∀ σ' p P e, allowed σ' (.act p .put) → σ'.procs p = some P → P.got = some e →
      may e σ'.now)
    (hpost : ∀ σ' p P, allowed σ' (.act p .post) → σ'.procs p = some P → soon P.seen σ'.now)
    (h : SesameReached crates cfg allowed σ) (hdirect : Direct σ.served) :
    (clientContract crates cfg σ.served may soon).Holds
      (fun x _ _ r => Created crates cfg σ.served may x r) σ := by
  refine (h.served.mono fun σ' l hl => ?_).holds (meets_provisionCall hdirect)
  obtain ⟨hallowed, hserved⟩ := hl
  cases l with
  | act p a =>
      cases a with
      | put => exact fun P hP e he => hput σ' p P e hallowed hP he
      | post => exact fun P hP => hpost σ' p P hallowed hP
      | serve y => exact fun P x k hP hprog => hserved p y P x k rfl hP hprog
      | _ => trivial
  | _ => trivial

end

/-! ### Where user ids come from -/

section

variable {answers : ProvisionUser → Except ProviderError Uuid → Prop}
  {guard : {R : Type} → Stmt R → Database → Prop} {sesame : Bool}

/-- The account's user, if it has one, was given as an answer for it. -/
def AccountRow.Assigned (answers : ProvisionUser → Except ProviderError Uuid → Prop)
    (a : AccountRow) : Prop :=
  ∀ u, a.sesameUserId = some u → answers ⟨a.email, a.displayName⟩ (.ok u)

theorem assigned_commit {d : Database} {c : Request} {cs : List (List Write)} {ws : List Write}
    (hpend : postgres.Pending Write.fits ws d) (hpost : Committed answers guard c cs d ws)
    (h : ∀ a ∈ d.accounts, a.Assigned answers) :
    ∀ a ∈ (postgres.applyAll ws d).accounts, a.Assigned answers := by
  cases hpost with
  | createAccount _ _ _ row =>
      refine Write.forall_put h fun u hu => ?_
      rw [row.2.2.2] at hu
      cases hu
  | provisioned answer same =>
      obtain ⟨-, -, -, hemail, hname, -⟩ := AccountRow.columns_of_fixed same
      refine Write.forall_put h ?_
      rintro _ ⟨⟩
      rw [← hemail, ← hname] at answer
      exact answer
  | reconcile answer =>
      refine Write.forall_put h ?_
      rintro _ ⟨⟩
      exact answer
  | @accountStatus _ _ a =>
      have ha : a ∈ d.accounts := (hpend.fits _ List.mem_cons_self).1
      exact Write.forall_put h (h a ha)
  | _ => exact h

theorem users_assigned {s : State} (hs : Reached sesame answers s) :
    ∀ a ∈ s.store.accounts, a.Assigned answers :=
  (reached_started sesame answers).store_induction
    (J := fun d => ∀ a ∈ d.accounts, a.Assigned answers) (by simp [Database.empty])
    (fun _ _ _ _ _ _ hpend hpost hd => assigned_commit hpend hpost hd) hs

end

/-! ### Runs to replay -/

/-- The request at the new place: a `GET` unless the status says that it is to be
repeated. -/
def redirected (req : HttpCall) (resp : HttpResponse) : Option HttpCall :=
  resp.location.map fun url =>
    if resp.status < 307 then { req with method := .get, url, body := none } else { req with url }

/-- The other packages, as far as one token and one user go. -/
def sesameCrates : HttpCrates where
  decode64 _ := none
  parseJson bytes :=
    if bytes = [1] then some (.obj [("access_token", .str "t1"), ("expires_in", .int 3600)])
    else if bytes = [2] then some (.obj [("user_id", .str "u900")])
    else none
  jsonError _ := "error decoding response body"
  ed25519 _ _ _ := false
  parseUuid text := if text = "u900" then some (.number 900) else none
  statusText status := toString status
  redirect req resp := .ok (if resp.redirects then redirected req resp else none)
  tooManyRedirects _ := "error following redirect: too many redirects"
  redirect_none req resp h := by rw [h]; rfl

def sesameSample : SesameConfig :=
  ⟨"http://login.example", "http://users.example", "acme", "groupware", "sk_1"⟩

def ann : ProvisionUser := ⟨"ann@acme.example", ""⟩

/-- A call that fetches a token, a second of waiting before every step of it
that can wait, and a call that uses the token once more and gets no answer. -/
def twoCalls : List SesameEvent :=
  [.spawn 0 ann, .act 0 .look, .tick second, .act 0 .post, .act 0 (.serve ⟨200, none, .ok [1]⟩),
    .act 0 .deliver, .tick second, .act 0 .put, .tick second, .act 0 .post,
    .act 0 (.serve ⟨200, none, .ok [2]⟩), .act 0 .deliver, .reply 0,
    .spawn 1 ann, .act 1 .look, .act 1 .post, .act 1 (.lose "timed out"), .reply 1]

/-- `Direct`, to be evaluated. -/
def direct (S : List (Exchange HttpCall HttpResponse)) : Bool :=
  S.all fun e => !e.response.redirects

theorem Direct.of_direct {S : List (Exchange HttpCall HttpResponse)} (h : direct S = true) :
    Direct S := by
  intro e he
  simpa using List.all_eq_true.1 h e he

section

variable {crates : HttpCrates} {cfg : SesameConfig} {σ : SesameState}

/-- The user of every account is the one that user management has answered with
when it was asked for the account's address, by a request with a token that the
login service had issued to the client. -/
theorem users_from_sesame {s : State} {sesame : Bool}
    (h : SesameReached crates cfg (fun _ _ => True) σ) (hdirect : Direct σ.served)
    (hs : Reached sesame (fun x r => ⟨x, r⟩ ∈ σ.replies) s) :
    ∀ a ∈ s.store.accounts, ∀ u, a.sesameUserId = some u →
      ∃ i ∈ σ.served, ∃ e ∈ σ.served, ∃ body, i.time ≤ e.time ∧ Issues crates cfg i body ∧
        e.request = createUserRequest cfg body.accessToken a.email a.displayName ∧
        readUser crates e.response = .ok u := by
  intro a ha u hu
  have hholds := client_holds (fun _ _ => True) (fun _ _ => True)
    (fun _ _ _ _ _ _ _ => trivial) (fun _ _ _ _ _ => trivial) h hdirect
  obtain ⟨-, -, hcreated⟩ := hholds.replies _ (users_assigned hs a ha u hu)
  obtain ⟨e, he, tok, t, ⟨i, hi, body, w, hissues, rfl, -, hiw, hwt, -⟩, hte, hreq, hread⟩ :=
    hcreated u rfl
  exact ⟨i, hi, e, he, body, Nat.le_trans (Nat.le_trans hiw hwt) hte, hissues, hreq, hread⟩

/-- The replies of a run with one answer, `u` for `x`. -/
def Gives (x : ProvisionUser) (u : Uuid) (x' : ProvisionUser) :
    Except ProviderError Uuid → Prop
  | .ok v => (x'.email = x.email ∧ x'.displayName = x.displayName) ∧ v = u
  | .error _ => False

instance (x : ProvisionUser) (u : Uuid) (x' : ProvisionUser) :
    (r : Except ProviderError Uuid) → Decidable (Gives x u x' r)
  | .ok v => inferInstanceAs (Decidable ((x'.email = x.email ∧ x'.displayName = x.displayName) ∧
      v = u))
  | .error _ => inferInstanceAs (Decidable False)

theorem gives_eq {x : ProvisionUser} {u : Uuid}
    {replies : List (Remote.Reply ProvisionUser (Except ProviderError Uuid))}
    (h : replies = [⟨x, .ok u⟩]) : (fun x' r => ⟨x', r⟩ ∈ replies) = Gives x u := by
  funext ⟨email, name⟩ r
  obtain ⟨email', name'⟩ := x
  cases r with
  | ok v => simp [h, Gives]
  | error e => simp [h, Gives]

theorem users_from_sesame_ann :
    ∃ (σ : SesameState) (s : State), SesameReached sesameCrates sesameSample (fun _ _ => True) σ ∧
      s.store.accounts.rows.map (fun a => a.sesameUserId) = [some (.number 900)] ∧
      ∀ a ∈ s.store.accounts, ∀ u, a.sesameUserId = some u →
        ∃ i ∈ σ.served, ∃ e ∈ σ.served, ∃ body, i.time ≤ e.time ∧
          Issues sesameCrates sesameSample i body ∧
          e.request = createUserRequest sesameSample body.accessToken a.email a.displayName ∧
          readUser sesameCrates e.response = .ok u := by
  have hcalls : (replay (provisionCall sesameCrates sesameSample) (fun _ _ => true)
      (twoCalls.take 13) .init).any (fun σ => direct σ.served &&
        decide (σ.replies.map (fun e => (e.job.email, e.job.displayName, e.answer.toOption)) =
          [(ann.email, ann.displayName, some (.number 900))])) = true := by
    decide +kernel
  obtain ⟨σ, hσ, h⟩ := (Option.any_eq_true _ _).1 hcalls
  obtain ⟨hdirect, hreplies⟩ := Bool.and_eq_true_iff.1 h
  have hlist : σ.replies = [⟨ann, .ok (.number 900)⟩] := by
    obtain ⟨⟨⟨email, name⟩, answer⟩, heq, hreply⟩ :=
      List.map_eq_singleton_iff.1 (of_decide_eq_true hreplies)
    simp only [Prod.mk.injEq] at hreply
    obtain ⟨rfl, rfl, hanswer⟩ := hreply
    cases answer with
    | error e => cases hanswer
    | ok u =>
        cases hanswer
        exact heq
  have hreached : SesameReached sesameCrates sesameSample (fun _ _ => True) σ :=
    Remote.Reached.replay .init (fun _ _ _ => trivial) hσ
  have hplay : ((play true (Gives ann (.number 900))
      (slowProvision ++ undisturbed 2 50 3 ++ [.reply 2])).any fun s =>
        decide (s.store.accounts.rows.map (fun a => a.sesameUserId) =
          [some (.number 900)])) = true := by
    decide +kernel
  obtain ⟨s, hs, husers⟩ := reached_of_play hplay
  rw [← gives_eq hlist] at hs
  exact ⟨σ, s, hreached, of_decide_eq_true husers,
    users_from_sesame hreached (.of_direct hdirect) hs⟩

/-- What the client may ask for: a token, or a user for the address of the call,
with a token it was issued. -/
theorem requests_confined (h : SesameReached crates cfg (fun _ _ => True) σ)
    (hdirect : Direct σ.served) :
    (∀ s ∈ σ.sent, s.request = tokenRequest cfg ∨
      ∃ i ∈ σ.served, ∃ body, i.time ≤ s.time ∧ Issues crates cfg i body ∧
        s.request = createUserRequest cfg body.accessToken s.job.email s.job.displayName) ∧
    ∀ p, σ.posted (fun req => decide (req.url = (tokenRequest cfg).url)) p ≤ 1 ∧
      σ.posted (fun req => decide (req.url ≠ (tokenRequest cfg).url)) p ≤ 1 := by
  have hholds := client_holds (fun _ _ => True) (fun _ _ => True)
    (fun _ _ _ _ _ _ _ => trivial) (fun _ _ _ _ _ => trivial) h hdirect
  refine ⟨fun s hs => ?_, fun p => ⟨?_, ?_⟩⟩
  · rcases hholds.sent s hs with hreq | ⟨tok, t, hold, hle, -, hreq⟩
    · exact .inl hreq
    · obtain ⟨i, hi, body, w, hissues, rfl, -, hiw, hwt, -⟩ := hold
      exact .inr ⟨i, hi, body, Nat.le_trans (Nat.le_trans hiw hwt) hle, hissues, hreq⟩
  · refine (h.sparing (φ := fun req => decide (req.url = (tokenRequest cfg).url)) (n := 1 + 0)
      (fun x => provisionCall_atMost (fun _ => Nat.le_refl 1) ?_) hdirect).posted p
    intro tok hφ
    exact absurd (of_decide_eq_true hφ) (createUserRequest_url_ne _ _ _)
  · refine (h.sparing (φ := fun req => decide (req.url ≠ (tokenRequest cfg).url)) (n := 0 + 1)
      (fun x => provisionCall_atMost ?_ fun _ _ => Nat.le_refl 1) hdirect).posted p
    intro hφ
    exact absurd rfl (of_decide_eq_true hφ)

theorem requests_confined_twoCalls :
    ∃ σ : SesameState, replay (provisionCall sesameCrates sesameSample) (fun _ _ => true)
        twoCalls .init = some σ ∧
      σ.sent.map (fun s => (s.pid, s.request.url)) = [(0, "http://login.example/auth/token"),
        (0, "http://users.example/admin/users"), (1, "http://users.example/admin/users")] ∧
      ((∀ s ∈ σ.sent, s.request = tokenRequest sesameSample ∨
        ∃ i ∈ σ.served, ∃ body, i.time ≤ s.time ∧ Issues sesameCrates sesameSample i body ∧
          s.request =
            createUserRequest sesameSample body.accessToken s.job.email s.job.displayName) ∧
      ∀ p, σ.posted (fun req => decide (req.url = (tokenRequest sesameSample).url)) p ≤ 1 ∧
        σ.posted (fun req => decide (req.url ≠ (tokenRequest sesameSample).url)) p ≤ 1) := by
  have hcalls : (replay (provisionCall sesameCrates sesameSample) (fun _ _ => true)
      twoCalls .init).any (fun σ => direct σ.served &&
        decide (σ.sent.map (fun s => (s.pid, s.request.url)) =
          [(0, "http://login.example/auth/token"), (0, "http://users.example/admin/users"),
            (1, "http://users.example/admin/users")])) = true := by
    decide +kernel
  obtain ⟨σ, hσ, h⟩ := (Option.any_eq_true _ _).1 hcalls
  obtain ⟨hdirect, hsent⟩ := Bool.and_eq_true_iff.1 h
  exact ⟨σ, hσ, of_decide_eq_true hsent,
    requests_confined (Remote.Reached.replay .init (fun _ _ _ => trivial) hσ)
      (.of_direct hdirect)⟩

/-- The client stores a token within `d` of the moment at which the login service
gave the answer that brought it, and posts a request within `d'` of the time it
has last looked at the clock. -/
def Timely (d d' : Nat) (σ : SesameState) : SesameEvent → Prop
  | .act p .put => ∀ P e, σ.procs p = some P → P.got = some e → σ.now ≤ e.time + d
  | .act p .post => ∀ P, σ.procs p = some P → σ.now ≤ P.seen + d'
  | _ => True

/-- `Timely`, to be evaluated. -/
def timely (d d' : Nat) (σ : SesameState) : SesameEvent → Bool
  | .act p .put => (σ.procs p).all fun P => P.got.all fun e => decide (σ.now ≤ e.time + d)
  | .act p .post => (σ.procs p).all fun P => decide (σ.now ≤ P.seen + d')
  | _ => true

theorem Timely.of_timely {d d' : Nat} {l : SesameEvent} (h : timely d d' σ l = true) :
    Timely d d' σ l := by
  cases l with
  | act p a =>
      cases a with
      | put =>
          intro P e hP he
          have hgot := (Option.all_eq_true _ _).1 ((Option.all_eq_true _ _).1 h P hP) e he
          exact of_decide_eq_true hgot
      | post => exact fun P hP => of_decide_eq_true ((Option.all_eq_true _ _).1 h P hP)
      | _ => trivial
  | _ => trivial

end

end OpenGroupware
