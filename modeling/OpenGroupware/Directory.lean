import OpenGroupware.Activation

/-!
The account directory: whose an address is, and which user of sesame-idam
stands behind an account. That an account's tenant owns the domain of its
address is enforced by no foreign key; it holds because the domain was looked
up under the tenant's own view.
-/

namespace OpenGroupware

open Relational Transactional

/-- Creating a user is idempotent and injective by email. -/
structure ByEmail (answers : ProvisionUser → Except ProviderError Uuid → Prop) : Prop where
  idempotent : ∀ x x' u u', answers x (.ok u) → answers x' (.ok u') → x.email = x'.email → u = u'
  injective : ∀ x x' u, answers x (.ok u) → answers x' (.ok u) → x.email = x'.email

/-- The user sesame-idam creates for an address. -/
def Assigns (answers : ProvisionUser → Except ProviderError Uuid → Prop) (email : String)
    (u : Uuid) : Prop :=
  ∃ displayName, answers ⟨email, displayName⟩ (.ok u)

/-- The address of a local part at a domain. -/
def Domain.address (m : Domain) (l : String) : String := l ++ "@" ++ m.fqdn

/-- A pending account has no user yet, and an active one has its own. -/
def AccountRow.Provisioned (answers : ProvisionUser → Except ProviderError Uuid → Prop)
    (a : AccountRow) : Prop :=
  a.status = .pendingProvisioning ∧ a.sesameUserId = none ∨
    a.status = .active ∧ ∃ u, a.sesameUserId = some u ∧ Assigns answers a.email u

structure Directory (answers : ProvisionUser → Except ProviderError Uuid → Prop)
    (d : Database) : Prop where
  addressed : ∀ a ∈ d.accounts, ∃ m ∈ d.domains, m.id = a.domainId ∧ m.tenantId = a.tenantId ∧
    ∃ l, validateLocalPart l = .ok () ∧ a.email = m.address l ∧
      ∀ l', a.email = m.address l' → l' = l
  email_unique : ∀ a ∈ d.accounts, ∀ a' ∈ d.accounts, a.email = a'.email → a = a'
  /-- An address can be asked for at one domain only, which is one tenant's. -/
  uncontended : ∀ m ∈ d.domains, ∀ m' ∈ d.domains, ∀ l l', validateLocalPart l = .ok () →
    validateLocalPart l' = .ok () → m.address l = m'.address l' → m = m' ∧ l = l'
  status : ∀ a ∈ d.accounts, a.status = .pendingProvisioning ∧ a.sesameUserId = none ∨
    a.status = .active ∧ ∃ u, a.sesameUserId = some u ∧ ∀ v, Assigns answers a.email v ↔ v = u
  user_unique : ∀ a ∈ d.accounts, ∀ a' ∈ d.accounts, ∀ u, a.sesameUserId = some u →
    a'.sesameUserId = some u → a = a'

theorem Domain.address_injective {m : Domain} {l l' : String} (h : m.address l = m.address l') :
    l = l' := by
  have hlist := congrArg String.toList h
  simp only [Domain.address, String.toList_append, List.append_assoc] at hlist
  exact String.toList_injective (List.append_cancel_right hlist)

theorem Domain.address_eq {m m' : Domain} {l l' : String} (hl : localPartOk l.toList = true)
    (hl' : localPartOk l'.toList = true) (h : m.address l = m'.address l') :
    m.fqdn = m'.fqdn ∧ l = l' := by
  have hlist := congrArg String.toList h
  simp only [Domain.address, String.toList_append, List.append_assoc] at hlist
  obtain ⟨hlocal, hfqdn⟩ := append_cons_cancel (localPartOk_at hl) (localPartOk_at hl') hlist
  exact ⟨String.toList_injective hfqdn, String.toList_injective hlocal⟩

section

variable {sesame : Bool} {answers : ProvisionUser → Except ProviderError Uuid → Prop}
  {guard : {R : Type} → Stmt R → Database → Prop} {σ : State}

theorem AccountRow.Provisioned.activated {a : AccountRow} {x : ProvisionUser} {u : Uuid}
    (hx : answers x (.ok u)) (hemail : a.email = x.email) (now : Timestamp) :
    (a.provisioned u now).Provisioned answers := by
  refine .inr ⟨rfl, u, rfl, x.displayName, ?_⟩
  have hemail' : (a.provisioned u now).email = x.email := hemail
  rw [hemail']
  exact hx

/-- No request of the services leaves an account in another condition. -/
theorem provisioned_commit {d : Database} {c : Request} {cs : List (List Write)}
    {ws : List Write} (hc : c.isService = true) (hpost : Committed answers guard c cs d ws)
    (h : ∀ a ∈ d.accounts, a.Provisioned answers) :
    ∀ a ∈ (postgres.applyAll ws d).accounts, a.Provisioned answers := by
  cases hpost with
  | createAccount _ _ _ row => exact Write.forall_put h (.inl row.2.2)
  | @provisioned _ _ _ _ a₀ _ a u now _ answer same =>
      have hemail : a.email = a₀.email := (AccountRow.columns_of_fixed same).2.2.2.1
      exact Write.forall_put h (.activated answer hemail now)
  | @reconcile _ _ _ a u now _ answer =>
      exact Write.forall_put h (.activated answer rfl now)
  | tenantStatus | domainStatus | accountStatus => cases hc
  | _ => exact h

/-- The directory is sound in every run of the services. -/
theorem directory_sound (hsesame : ByEmail answers) (h : Serviced sesame answers σ) :
    Directory answers σ.store := by
  have hs : (contract answers fun _ _ => True).Started (services sesame answers)
      (fun c => c.isService = true) Database.empty Session.new := services_started Consistent.empty
  have hinv : Consistent σ.store := (hs.inv h).store
  have hprov : ∀ a ∈ σ.store.accounts, a.Provisioned answers :=
    hs.store_induction (J := fun d => ∀ a ∈ d.accounts, a.Provisioned answers)
      (by simp [Database.empty])
      (fun _ _ _ _ hc _ _ hpost hd => provisioned_commit hc hpost hd) h
  have huser : ∀ a ∈ σ.store.accounts, ∀ u, a.sesameUserId = some u →
      Assigns answers a.email u := by
    intro a ha u hu
    rcases hprov a ha with ⟨-, hnone⟩ | ⟨-, v, hv, hassigned⟩
    · rw [hnone] at hu
      cases hu
    · obtain rfl : v = u := Option.some.inj (hv.symm.trans hu)
      exact hassigned
  refine ⟨fun a ha => ?_, hinv.email_unique, ?_, fun a ha => ?_, ?_⟩
  · obtain ⟨m, hm, hid, hT, l, hl, hemail⟩ := hinv.account_addressed a ha
    refine ⟨m, hm, hid, hT, l, validateLocalPart_eq_ok.2 hl, hemail, fun l' hl' => ?_⟩
    exact Domain.address_injective (hl'.symm.trans hemail)
  · intro m hm m' hm' l l' hl hl' heq
    obtain ⟨hfqdn, hlocal⟩ :=
      Domain.address_eq (validateLocalPart_eq_ok.1 hl) (validateLocalPart_eq_ok.1 hl') heq
    exact ⟨hinv.fqdn_unique m hm m' hm' hfqdn, hlocal⟩
  · rcases hprov a ha with hpending | ⟨hactive, u, hu, name, hassigned⟩
    · exact .inl hpending
    · refine .inr ⟨hactive, u, hu, fun v => ⟨?_, ?_⟩⟩
      · rintro ⟨name', hassigned'⟩
        exact hsesame.idempotent _ _ v u hassigned' hassigned rfl
      · rintro rfl
        exact ⟨name, hassigned⟩
  · intro a ha a' ha' u hu hu'
    obtain ⟨name, hassigned⟩ := huser a ha u hu
    obtain ⟨name', hassigned'⟩ := huser a' ha' u hu'
    exact hinv.email_unique a ha a' ha' (hsesame.injective _ _ u hassigned hassigned')

end

/-- A sesame-idam that knows these users and refuses all other addresses. -/
def knows (users : List (String × Uuid)) (x : ProvisionUser) :
    Except ProviderError Uuid → Prop
  | .ok u => (x.email, u) ∈ users
  | .error _ => ∀ u ∈ users, u.1 ≠ x.email

instance (users : List (String × Uuid)) (x : ProvisionUser) :
    (y : Except ProviderError Uuid) → Decidable (knows users x y)
  | .ok u => inferInstanceAs (Decidable ((x.email, u) ∈ users))
  | .error _ => inferInstanceAs (Decidable (∀ u ∈ users, u.1 ≠ x.email))

/-- A user by any address. -/
theorem byEmail_knows {users : List (String × Uuid)}
    (huser : ∀ u ∈ users, ∀ v ∈ users, u.1 = v.1 ↔ u.2 = v.2) : ByEmail (knows users) where
  idempotent _ _ _ _ h h' := (huser _ h _ h').1
  injective _ _ _ h h' := (huser _ h _ h').2 rfl

/-- Users of two tenants. -/
def annAndBob : List (String × Uuid) :=
  [("ann@acme.io", .number 900), ("bob@globex.io", .number 901)]

/-- A tenant with a domain and an account, for which sesame-idam gives user `u`. -/
def staff (p n : Nat) (slug fqdn localPart : String) (u : Uuid) : List Event :=
  let admin : Caller := ⟨"admin", none, []⟩
  [.spawn p (.http admin (.createTenant { slug, name := slug }))] ++
    undisturbed p n 3 ++ [.reply p] ++
  [.spawn (p + 1) (.http admin (.createDomain (.number (n + 1)) { fqdn }))] ++
    undisturbed (p + 1) (n + 10) 3 ++ [.reply (p + 1)] ++
  [.spawn (p + 2) (.http admin (.createAccount (.number (n + 1))
    { domainId := .number (n + 11), localPart }))] ++
    undisturbed (p + 2) (n + 20) 4 ++ [.call (p + 2) (.ok u)]

/-- A cycle overtakes the request that creates the account of one tenant. Another
tenant creates two, of which sesame-idam refuses one. -/
def staffed : List Event :=
  staff 0 1 "acme" "acme.io" "ann" (.number 900) ++ overtakingCycle ++
    undisturbed 2 50 3 ++ [.reply 2] ++
  staff 4 60 "globex" "globex.io" "bob" (.number 901) ++ undisturbed 6 90 3 ++ [.reply 6] ++
  [.spawn 7 (.http ⟨"admin", none, []⟩ (.createAccount (.number 61)
    { domainId := .number 71, localPart := "eve" }))] ++
    undisturbed 7 100 4 ++ [.call 7 (.error (.internal "403 Forbidden")), .reply 7]

theorem directory_sound_staffed :
    ∃ σ, Serviced true (knows annAndBob) σ ∧
      σ.store.accounts.rows.map (fun a => (a.tenantId, a.email, a.status)) =
        [(.number 2, "ann@acme.io", .active), (.number 61, "bob@globex.io", .active),
          (.number 61, "eve@globex.io", .pendingProvisioning)] ∧
      Directory (knows annAndBob) σ.store := by
  have hreplay : ((replay (services true (knows annAndBob)) (fun c => c.isService = true)
      (fun _ _ => True) (Sys.init Database.empty Session.new) staffed).any fun σ =>
        decide (σ.store.accounts.rows.map (fun a => (a.tenantId, a.email, a.status)) =
          [(.number 2, "ann@acme.io", .active), (.number 61, "bob@globex.io", .active),
            (.number 61, "eve@globex.io", .pendingProvisioning)])) = true := by
    decide +kernel
  obtain ⟨σ, hσ, h⟩ := exists_of_replay hreplay
  exact ⟨σ, hσ, of_decide_eq_true h, directory_sound (byEmail_knows (by decide)) hσ⟩

end OpenGroupware
