import OpenGroupware.AdminApi
import OpenGroupware.AbuseApi
import OpenGroupware.JobRunner
import OpenGroupware.Transactional.Replay

/-!
The services against their databases, as one system: requests to the routes of
admin-api and abuse-api with the caller that authentication has established,
reconciliation cycles of any number of job-runners, and operators who change
statuses by hand.
-/

namespace OpenGroupware

open Transactional

/-- The routes of the two routers, with what their extractors deliver. -/
inductive Route
  | createTenant (req : CreateTenant)
  | listTenants
  | createDomain (tenantId : Uuid) (req : CreateDomain)
  | listDomains (tenantId : Uuid)
  | createAccount (tenantId : Uuid) (req : CreateAccount)
  | listAccounts (tenantId : Uuid)
  | getPolicy (tenantId : Uuid) (now : Timestamp)
  | putPolicy (tenantId : Uuid) (req : SetAbusePolicy)
  | recordDecision (tenantId : Uuid) (req : RecordDecision)
  | listQuarantine (tenantId : Uuid)
  | releaseItem (tenantId itemId : Uuid)
  | reportItem (tenantId itemId : Uuid) (req : ReportFeedback)

/-- The handler behind a route. -/
def Route.handler (sesame : Bool) (caller : Caller) : Route → Handler Response
  | .createTenant req => OpenGroupware.createTenant caller req
  | .listTenants => OpenGroupware.listTenants
  | .createDomain tenantId req => OpenGroupware.createDomain tenantId caller req
  | .listDomains tenantId => OpenGroupware.listDomains tenantId
  | .createAccount tenantId req => OpenGroupware.createAccount sesame tenantId caller req
  | .listAccounts tenantId => OpenGroupware.listAccounts tenantId
  | .getPolicy tenantId now => OpenGroupware.getPolicy tenantId now
  | .putPolicy tenantId req => OpenGroupware.putPolicy tenantId caller req
  | .recordDecision tenantId req => OpenGroupware.recordDecision tenantId caller req
  | .listQuarantine tenantId => OpenGroupware.listQuarantine tenantId
  | .releaseItem tenantId itemId => OpenGroupware.releaseItem tenantId itemId caller
  | .reportItem tenantId itemId req => OpenGroupware.reportItem tenantId itemId caller req

/-- A status changed by an operator. -/
inductive OperatorChange
  | tenant (id : Uuid) (status : TenantStatus)
  | domain (id : Uuid) (status : DomainStatus)
  | account (id : Uuid) (status : AccountStatus)

def OperatorChange.statement : OperatorChange → Stmt Unit
  | .tenant id status => .setTenantStatus id status
  | .domain id status => .setDomainStatus id status
  | .account id status => .setAccountStatus id status

def operatorChange (c : OperatorChange) : DbM Unit := do
  begin
  query c.statement
  commit

inductive Request
  | http (caller : Caller) (route : Route)
  | reconcile (batch : Int)
  | operator (c : OperatorChange)

inductive Answer
  | http (r : Response)
  | cycle (r : Except DbError Nat)
  | operator (r : Except DbError Unit)

/-- What runs on behalf of a request. -/
def Request.program (sesame : Bool) : Request → Program Answer
  | .http caller route => do return .http (← (route.handler sesame caller).respond)
  | .reconcile batch => do return .cycle (← (reconcileOnce batch).run)
  | .operator c => do return .operator (← (operatorChange c).run)

/-- The services. What sesame-idam may answer is left to `answers`. -/
def services (sesame : Bool) (answers : ProvisionUser → Except ProviderError Uuid → Prop) :
    Machine Stmt Session Oracle Database Write DbError ProvisionUser
      (Except ProviderError Uuid) Request Answer where
  toEngine := postgres
  program := Request.program sesame
  answers := answers

section

variable {sesame : Bool} {answers : ProvisionUser → Except ProviderError Uuid → Prop}

instance (w w' : Write) : Decidable ((services sesame answers).clash w w') :=
  inferInstanceAs (Decidable (w.clash w'))

instance (o : Oracle) (d : Database) : Decidable ((services sesame answers).fresh o d) :=
  inferInstanceAs (Decidable (o.Fresh d))

instance [h : ∀ x y, Decidable (answers x y)] (x : ProvisionUser)
    (y : Except ProviderError Uuid) : Decidable ((services sesame answers).answers x y) :=
  h x y

end

/-- The states of the services. -/
abbrev State : Type 1 :=
  Sys Stmt Session Database Write DbError ProvisionUser (Except ProviderError Uuid) Request Answer

/-- The states of all runs from freshly migrated databases. -/
abbrev Reached (sesame : Bool) (answers : ProvisionUser → Except ProviderError Uuid → Prop)
    (σ : State) : Prop :=
  Reachable (services sesame answers) (fun _ => True) (fun _ _ => True) Database.empty
    Session.new σ

/-- What happens in a run. -/
abbrev Event : Type := Label Oracle Request (Except ProviderError Uuid)

/-- The runs from freshly migrated databases, with what happens in them. -/
abbrev RunsTo (sesame : Bool) (answers : ProvisionUser → Except ProviderError Uuid → Prop)
    (ls : List Event) (σ : State) : Prop :=
  Run (services sesame answers) (fun _ => True) (fun _ _ => True)
    (Sys.init Database.empty Session.new) ls σ

theorem RunsTo.reached {sesame : Bool}
    {answers : ProvisionUser → Except ProviderError Uuid → Prop} {ls : List Event} {σ : State}
    (h : RunsTo sesame answers ls σ) : Reached sesame answers σ :=
  Reachable.run .init h

/-- The steps of the services. -/
abbrev Steps (sesame : Bool) (answers : ProvisionUser → Except ProviderError Uuid → Prop) :
    State → Event → State → Prop :=
  Step (services sesame answers) (fun _ => True) (fun _ _ => True)

/-! ### Runs to replay -/

def Uuid.number (n : Nat) : Uuid := ⟨BitVec.ofNat 128 n⟩

/-- An oracle that supplies the `n`-th identifier at time `n`. -/
def Oracle.number (n : Nat) : Oracle :=
  ⟨.number n, n, fun u => u.bits.toNat, Uuid.toNat_injective, fun _ => true, fun _ _ => rfl⟩

/-- A transaction of `len` statements that nothing disturbs. -/
def undisturbed (p n len : Nat) : List Event :=
  .start p 0 (.number n) ::
    ((List.range len).map fun i => .stmt p (.number (n + i))) ++ [.commit p]

/-- A spam scan that holds message `m1` back from a recipient. -/
def scan (recipient : String) : Request :=
  .http ⟨"scanner", none, []⟩ (.recordDecision (.number 100)
    { messageRef := "m1", recipient, score := .fin 15, action := "quarantine" })

section

variable {sesame : Bool} {answers : ProvisionUser → Except ProviderError Uuid → Prop}
  [∀ x y, Decidable (answers x y)]

/-- The state a list of events leads to from freshly migrated databases. -/
def play (sesame : Bool) (answers : ProvisionUser → Except ProviderError Uuid → Prop)
    [∀ x y, Decidable (answers x y)] (events : List Event) : Option State :=
  replay (services sesame answers) (fun _ => True) (fun _ _ => True)
    (Sys.init Database.empty Session.new) events

theorem reached_of_play {events : List Event} {p : State → Bool}
    (h : (play sesame answers events).any p = true) :
    ∃ σ, Reached sesame answers σ ∧ p σ = true :=
  exists_of_replay h

theorem runsTo_of_play {events : List Event} {p : State → Bool}
    (h : (play sesame answers events).any p = true) :
    ∃ σ, RunsTo sesame answers events σ ∧ p σ = true := by
  obtain ⟨σ, hσ, hp⟩ := (Option.any_eq_true _ _).1 h
  exact ⟨σ, run_of_replay .init hσ, hp⟩

theorem step_of_play {events : List Event} {l : Event} {p : State → State → Bool}
    (h : ((play sesame answers events).any fun σ =>
      (next (services sesame answers) (fun _ => True) (fun _ _ => True) σ l).any (p σ)) = true) :
    ∃ σ σ', Reached sesame answers σ ∧ Steps sesame answers σ l σ' ∧ p σ σ' = true :=
  exists_step_of_replay h

end

end OpenGroupware
