import OpenGroupware.Fulfilment
import OpenGroupware.Isolation

/-!
What the caller's tenant means for a request. The handlers take the tenant they
work for from the path and the caller only for the audit trail, so it is the
path that keeps a request away from a tenant's rows, whoever sends it.
-/

namespace OpenGroupware

open Relational Transactional

/-! ### All tenants but one -/

/-- The stores differ in rows of tenant `B` only. -/
def AgreesBut (B : Uuid) (d d' : Database) : Prop := ∀ T, T ≠ B → Agrees T d d'

theorem agreesBut_equivalence (B : Uuid) : Equivalence (AgreesBut B) where
  refl d T _ := .refl T d
  symm h T hT := (h T hT).symm
  trans h h' T hT := (h T hT).trans (h' T hT)

/-- The row that is written is not one of tenant `B`. -/
def Write.spares (B : Uuid) (w : Write) : Bool := !decide (w.owner = some B)

theorem Write.spares_eq_false {B : Uuid} {w : Write} : w.spares B = false ↔ w.owner = some B := by
  rw [spares, Bool.not_eq_false', decide_eq_true_eq]

/-- A write to a row of `B` is not seen from the other tenants. -/
theorem AgreesBut.apply_other {B : Uuid} {w : Write} {d : Database} (hfit : w.fits d)
    (hw : w.spares B = false) : AgreesBut B d (w.apply d) := by
  intro T hT
  refine Agrees.apply_other hfit fun hT' => ?_
  exact hT (Option.some.inj (hT'.symm.trans (Write.spares_eq_false.1 hw)))

/-- What is written for another tenant spares `B`. -/
theorem Write.spares_of_owner {B T : Uuid} {w : Write} (hB : T ≠ B)
    (hw : decide (w.owner = some T) = true) : w.spares B = true := by
  rw [← Bool.not_eq_false, spares_eq_false, of_decide_eq_true hw]
  exact fun h => hB (Option.some.inj h)

theorem openTx_now (o : Oracle) (s s' : Session) : (s.openTx o).now = (s'.openTx o).now := rfl

/-- The part of the store that is not tenant `B`'s, and the requests under the
paths of the other tenants. -/
def othersPart (sesame : Bool) (answers : ProvisionUser → Except ProviderError Uuid → Prop)
    (B : Uuid) : Part (contract answers fun _ _ => True) (services sesame answers) where
  same := AgreesBut B
  alike s s' := s.now = s'.now
  owned := Write.spares B
  bit := Stmt.discloses
  low c := ∃ caller route T, c = .http caller route ∧ route.tenant = some T ∧ T ≠ B
  equiv := agreesBut_equivalence B
  alike_open := openTx_now
  apply_owned _ _ h T hT := (h T hT).apply _
  apply_other hfit hw := AgreesBut.apply_other hfit hw
  exec := by
    rintro c R q s s' o d d' ⟨caller, route, T, rfl, hT, hB⟩ hpre hpre' hfresh hfresh' hnow hagree
      hbit
    exact Matched.mono (fun w hw => Write.spares_of_owner hB hw)
      (Sql.exec_scoped (hpre.2 T hT) (hpre'.2 T hT) hfresh hfresh' hnow (hagree T hB) hbit)

/-! ### Authorization -/

/-- Of the rows of tenant `B` the request reads and changes none. -/
structure Authorized (sesame : Bool)
    (answers : ProvisionUser → Except ProviderError Uuid → Prop) (caller : Caller)
    (route : Route) (B : Uuid) : Prop where
  /-- Two runs from states that differ in rows of `B` only, as far as the request
  has taken the same steps in them and the others have made the same changes to
  rows that are not `B`'s: the request goes on in the same way, and what it has
  answered is the same. -/
  reads : ∀ {σ₁ σ₂ σ₁' σ₂' p es}, Reached sesame answers σ₁ → Reached sesame answers σ₂ →
    p ∉ σ₁.started → p ∉ σ₂.started → AgreesBut B σ₁.store σ₂.store →
    (∀ c b, .own (.spawn p c) b ∈ es → c = .http caller route) →
    (othersPart sesame answers B).Observed (fun _ => True) p σ₁ es σ₁' →
    (othersPart sesame answers B).Observed (fun _ => True) p σ₂ es σ₂' →
      σ₁'.ahead p = σ₂'.ahead p ∧ σ₁'.answersOf p = σ₂'.answersOf p
  /-- Run on any two databases that differ in rows of `B` only, and not in the one
  bit that the answer may give away, the request is answered the same, and the
  rows of `B` are what they were. -/
  response : ∀ {w : Weather} {z z' : Solo Session Database}, Consistent z.store →
    Consistent z'.store → z.session.Idle → z'.session.Idle → (∀ x, answers x (w.answer x)) →
    FreshEval postgres w ((Request.http caller route).program sesame) none z →
    FreshEval postgres w ((Request.http caller route).program sesame) none z' →
    z.clock = z'.clock → route.discloses z.store = route.discloses z'.store →
    AgreesBut B z.store z'.store →
      (eval postgres w ((Request.http caller route).program sesame) none z).1 =
          (eval postgres w ((Request.http caller route).program sesame) none z').1 ∧
        Agrees B z.store
          (eval postgres w ((Request.http caller route).program sesame) none z).2.store ∧
        Agrees B z'.store
          (eval postgres w ((Request.http caller route).program sesame) none z').2.store
  /-- No step of the request changes a row of `B`. -/
  changes : ∀ {σ σ' P l}, Reached sesame answers σ → σ.procs l.pid = some P →
    P.request = .http caller route → Steps sesame answers σ l σ' → Agrees B σ.store σ'.store

/-- The check at the head of a handler, before it has a connection. -/
def Route.checked : Route → Except ApiError Unit
  | .createTenant req => validateSlug req.slug
  | .createDomain _ req => validateFqdn req.fqdn
  | .createAccount _ req => validateLocalPart req.localPart
  | .putPolicy _ req => validatePolicy req
  | .recordDecision _ req => validateDecision req
  | .reportItem _ _ req => validateFeedback req
  | _ => .ok ()

/-- The handler gets to the database, and no other tenant's path keeps it away
from the rows of `B`. -/
def Route.Reaches (route : Route) (B : Uuid) : Prop :=
  route.checked = .ok () ∧ ∀ T, route.tenant = some T → T = B

section

variable {sesame : Bool} {answers : ProvisionUser → Except ProviderError Uuid → Prop}
  {caller : Caller} {route : Route} {B T : Uuid}

/-- A handler that turns a request down does nothing else. -/
theorem program_of_refused {e : ApiError} (h : route.checked = .error e) :
    (services sesame answers).program (.http caller route) = .ret (.http e.intoResponse) := by
  change (route.handler sesame caller).serve = _
  cases route with
  | createTenant req | createDomain T req | createAccount T req | putPolicy T req
  | recordDecision T req | reportItem T itemId req =>
      simp only [Route.checked] at h
      simp only [Route.handler, createTenant, createDomain, createAccount, putPolicy,
        recordDecision, reportItem, Handler.serve_check, h]
  | listTenants | listDomains T | listAccounts T | getPolicy T now | listQuarantine T
  | releaseItem T itemId => cases h

theorem authorized_of_refused {e : ApiError} (h : route.checked = .error e) :
    Authorized sesame answers caller route B := by
  have hret : (services sesame answers).program (.http caller route) =
      .ret (.http e.intoResponse) := program_of_refused h
  have hs := reached_started sesame answers
  refine ⟨?_, ?_, ?_⟩
  · intro σ₁ σ₂ σ₁' σ₂' p es h₁ h₂ hp₁ hp₂ hagree hreq hrun₁ hrun₂
    have hspawn : ∀ c b, .own (.spawn p c) b ∈ es →
        (services sesame answers).program c = .ret (.http e.intoResponse) :=
      fun c b hc => (hreq c b hc) ▸ hret
    have hnone : ∀ {σ : State}, Reached sesame answers σ → p ∉ σ.started →
        σ.procs p = none := fun hσ hp => (hσ.recorded.fresh p hp).1
    have hanswering : ∀ {σ : State}, Reached sesame answers σ → p ∉ σ.started →
        σ.Answering p (.http e.intoResponse) := by
      intro σ hσ hp P hP
      rw [hnone hσ hp] at hP
      cases hP
    have hstart : (othersPart sesame answers B).Indistinct p σ₁ σ₂ :=
      .of_not_started h₁ h₂ hp₁ hp₂ hagree
    obtain ⟨hret₁, hruns₁, hanswers₁⟩ := hrun₁.of_ret hs h₁ hspawn (hanswering h₁ hp₁)
    obtain ⟨hret₂, hruns₂, hanswers₂⟩ := hrun₂.of_ret hs h₂ hspawn (hanswering h₂ hp₂)
    refine ⟨hret₁.ahead hret₂ ?_, ?_⟩
    · rw [hruns₁, hruns₂, hnone h₁ hp₁, hnone h₂ hp₂]
    · rw [hanswers₁, hanswers₂, hstart.answers]
  · intro w z z' _ _ _ _ _ _ _ _ _ _
    have hret : (Request.http caller route).program sesame = .ret (.http e.intoResponse) := hret
    rw [hret]
    exact ⟨rfl, .refl B z.store, .refl B z'.store⟩
  · intro σ σ' P l hσ hP hreq hstep
    rcases hstep.store_eq with ⟨-, hstore, -⟩ | ⟨p, P', t, k, rfl, hp, hprog, -, -, -⟩
    · rw [hstore]
      exact .refl _ _
    · obtain rfl : P = P' := Option.some.inj (hP.symm.trans hp)
      rw [hσ.prog_of_ret hret hP hreq] at hprog
      cases hprog

theorem authorized_of_tenant (hT : route.tenant = some T) (hB : T ≠ B) :
    Authorized sesame answers caller route B := by
  refine ⟨?_, ?_, ?_⟩
  · intro σ₁ σ₂ σ₁' σ₂' p es h₁ h₂ hp₁ hp₂ hagree hreq hrun₁ hrun₂
    have hstart : (othersPart sesame answers B).Indistinct p σ₁ σ₂ :=
      .of_not_started h₁ h₂ hp₁ hp₂ hagree
    have hlow : ∀ c b, .own (.spawn p c) b ∈ es → (othersPart sesame answers B).low c :=
      fun c b hc => ⟨caller, route, T, hreq c b hc, hT, hB⟩
    have hend := Part.noninterference (reached_started sesame answers) h₁ h₂ hlow hstart hrun₁
      hrun₂
    exact ⟨hend.ahead, hend.answers⟩
  · intro w z z' hz hz' hidle hidle' hanswer hfresh hfresh' hclock hbit hagree
    refine ⟨(eval_agrees hT hz hz' hidle hidle' hanswer hfresh hfresh' hclock hbit
      (hagree T hB)).1, ?_, ?_⟩
    · exact agrees_eval hT hz hidle hanswer hfresh hB.symm
    · exact agrees_eval hT hz' hidle' hanswer hfresh' hB.symm
  · exact fun hσ hP hreq hstep => agrees_other hT hσ hP hreq hstep hB.symm

/-- A request of a caller of tenant `A` reads and changes nothing of another
tenant `B` as long as its path or a check keeps it away. -/
theorem tenant_authorized {A : Uuid} (subject : String) (_hB : B ≠ A) (h : ¬route.Reaches B) :
    Authorized sesame answers ⟨subject, some A, []⟩ route B := by
  cases hchecked : route.checked with
  | error e => exact authorized_of_refused hchecked
  | ok u =>
      have hother : ∃ T, route.tenant = some T ∧ T ≠ B := by
        by_contra hno
        push Not at hno
        exact h ⟨hchecked, hno⟩
      obtain ⟨T, hT, hne⟩ := hother
      exact authorized_of_tenant hT hne

end

/-- Both parts let out the same about domain names. -/
theorem bits_othersPart {answers : ProvisionUser → Except ProviderError Uuid → Prop}
    [∀ x y, Decidable (answers x y)] {sesame : Bool} {B T : Uuid} (σ : State)
    (ls : List Event) : (othersPart sesame answers B).bits (fun _ => True) σ ls =
      (tenantPart sesame answers T).bits (fun _ => True) σ ls := by
  induction ls generalizing σ with
  | nil => rfl
  | cons l ls ih =>
      have hrest : (fun σ' => (othersPart sesame answers B).bits (fun _ => True) σ' ls) =
          fun σ' => (tenantPart sesame answers T).bits (fun _ => True) σ' ls := funext ih
      exact congrArg (fun rest => _ :: (next _ _ _ σ l).elim [] rest) hrest

theorem tenant_authorized_neighbours :
    ∃ σ₁ σ₂ σ₁' σ₂', Neighbours σ₁ σ₂ σ₁' σ₂' ∧ AgreesBut (.number 11) σ₁.store σ₂.store ∧
      σ₁'.answersOf 5 = σ₂'.answersOf 5 ∧ (σ₂'.answersOf 5).map Answer.status = [some 201] := by
  obtain ⟨σ₁, σ₂, σ₁', σ₂', h⟩ := exists_neighbours
  have hpid : ∀ l ∈ firstGrows, l.pid = 5 := by
    decide
  have hobserved₁ := (othersPart false (fun _ _ => False) (.number 11)).observed_of_replay
    h.left hpid h.runLeft
  have hobserved₂ := (othersPart false (fun _ _ => False) (.number 11)).observed_of_replay
    h.right hpid h.runRight
  rw [bits_othersPart (T := .number 2), h.bits] at hobserved₁
  rw [bits_othersPart (T := .number 2)] at hobserved₂
  have hauthorized : Authorized false (fun _ _ => False) ⟨"ann", some (.number 2), []⟩
      firstAccount (.number 11) :=
    tenant_authorized "ann" (by decide) fun hreaches => absurd (hreaches.2 _ rfl) (by decide)
  obtain ⟨-, hanswers⟩ := hauthorized.reads h.left h.right h.notStarted.1 h.notStarted.2 h.agrees
    (fun c b hc => spawn_firstGrows (Part.spawn_of_mem_zipWith hc)) hobserved₁ hobserved₂
  exact ⟨σ₁, σ₂, σ₁', σ₂', h, h.agrees, hanswers, hanswers ▸ h.answered⟩

/-! ### A domain for another tenant -/

/-- The domain a request asks for. -/
def Request.domain? : Request → Option (Caller × Uuid × CreateDomain)
  | .http caller (.createDomain T req) => some (caller, T, req)
  | _ => none

theorem Request.domain?_eq_some {c : Request} {caller : Caller} {T : Uuid} {req : CreateDomain}
    (h : c.domain? = some (caller, T, req)) : c = .http caller (.createDomain T req) := by
  unfold Request.domain? at h
  split at h
  · cases h
    rfl
  · cases h

/-- A caller of tenant 7 is about to commit a domain of tenant 2. -/
def foreignDomain : List Event :=
  founded ++ [.spawn 1 (.http ⟨"ann", some (.number 7), []⟩
    (.createDomain (.number 2) ⟨"acme.example"⟩))] ++ (undisturbed 1 10 3).dropLast

theorem foreign_domain_created :
    ¬Authorized false (fun _ _ => False) ⟨"ann", some (.number 7), []⟩
      (.createDomain (.number 2) ⟨"acme.example"⟩) (.number 2) := by
  have hplay : ((play false (fun _ _ => False) foreignDomain).any fun σ =>
      (next (services false fun _ _ => False) (fun _ => True) (fun _ _ => True) σ
        (.commit 1)).any fun σ' => (σ.procs 1).any fun P =>
          (P.request.domain?.any fun x => decide (x.1.subject = "ann") &&
            decide (x.1.tenantId = some (.number 7)) && x.1.roles.isEmpty &&
            decide (x.2.1 = .number 2) && decide (x.2.2.fqdn = "acme.example")) &&
          σ.store.domains.rows.isEmpty &&
          σ'.store.domains.rows.any fun m => decide (m.tenantId = .number 2)) = true := by
    decide +kernel
  obtain ⟨σ, σ', hσ, hstep, h⟩ := step_of_play hplay
  simp only [Option.any_eq_true, Bool.and_eq_true, decide_eq_true_eq, List.isEmpty_iff,
    List.any_eq_true] at h
  obtain ⟨P, hp, ⟨⟨⟨⟨subject, tenantId, roles⟩, T, ⟨fqdn⟩⟩, hdomain,
    ⟨⟨⟨rfl, rfl⟩, rfl⟩, rfl⟩, rfl⟩, hempty⟩, m, hm, hT⟩ := h
  intro hauth
  have hagree := hauth.changes (l := .commit 1) hσ hp (Request.domain?_eq_some hdomain) hstep
  have hbefore : m ∈ σ.store.domains := (hagree.domains m hT).2 hm
  rw [Table.mem_def, hempty] at hbefore
  cases hbefore

end OpenGroupware
