import OpenGroupware.Audit
import OpenGroupware.Compilation
import OpenGroupware.Snapshots
import OpenGroupware.Thresholds
import OpenGroupware.Transactional.Progress
import OpenGroupware.Transactional.Worker

/-!
From the APIs to the mail plane: a config-compiler that compiles again and again
beside the services. Anything in it may fail at any time, a write may be torn,
and it may be stopped and started again. The settings file is never but the one
that was there or a whole compiled one, and a cycle that succeeds leaves one that
is not older than the cycle. It so shows every policy that had been acknowledged
before.
-/

namespace OpenGroupware

open Relational Text.Ucl Transactional

/-! ### The compiler as a worker -/

/-- What an operation may come to: it may fail, and leave a torn file behind. -/
def FsCall.Acts (x : FsCall) (files : Files) (y : Except IoError Unit) (files' : Files) : Prop :=
  ∃ disk fails, x.perform disk fails files = (y, files')

abbrev Compiler : Type 1 :=
  Worker CompilerStmt Session Write DbError FsCall (Except IoError Unit) Files
    (Except CompileError Nat)

/-- The services with a compiler beside them. -/
abbrev Pipeline : Type 1 :=
  Beside State CompilerStmt Session Write DbError FsCall (Except IoError Unit) Files
    (Except CompileError Nat)

section

variable (collate : String → String → Bool) (print : F64 → String) (path : String)
  (sesame : Bool) (answers : ProvisionUser → Except ProviderError Uuid → Prop)

abbrev Pipeline.Run : Pipeline → Pipeline → Prop :=
  Beside.Run (compilerPostgres collate) FsCall.Acts (compileOnce print path).run
    (fun σ : State => σ.store) fun σ σ' => ∃ l, Steps sesame answers σ l σ'

/-- The states of all runs from when a compiler is put beside the services, with
whatever files there are. -/
def Pipeline.Reached (π : Pipeline) : Prop :=
  ∃ σ files, OpenGroupware.Reached sesame answers σ ∧
    Pipeline.Run collate print path sesame answers ⟨σ, .init Session.new files⟩ π

/-! ### What a cycle leaves behind -/

/-- The settings file is the old one, if no cycle has succeeded, or compiled
from a store that has been seen. -/
def FileSound (old : Option String) (results : List (Except CompileError Nat))
    (seen : Set Database) (files : Files) : Prop :=
  (files path = old ∧ ∀ n, .ok n ∉ results) ∨
    ∃ d ∈ seen, files path = some (renderUcl print (loaded collate d))

/-- The rest of a cycle keeps the file sound. -/
abbrev Compile.Sustains (old : Option String) (results : List (Except CompileError Nat))
    (x : Compile Nat) : Option (Session × List Write) → Set Database → Files → Prop :=
  x.run.Sustains (compilerPostgres collate) FsCall.Acts Session.Idle
    (FileSound collate print path old results)
    fun _ seen a files => FileSound collate print path old (results ++ [a]) seen files

end

section

variable {collate : String → String → Bool} {print : F64 → String} {path : String}
  {old : Option String} {results : List (Except CompileError Nat)} {seen seen' : Set Database}
  {files files' : Files} {tx : Option (Session × List Write)}

theorem FileSound.mono (hsub : seen ⊆ seen')
    (h : FileSound collate print path old results seen files) :
    FileSound collate print path old results seen' files := by
  rcases h with h | ⟨d, hd, h⟩
  · exact .inl h
  · exact .inr ⟨d, hsub hd, h⟩

theorem FileSound.of_path (hpath : files' path = files path)
    (h : FileSound collate print path old results seen files) :
    FileSound collate print path old results seen files' := by
  rw [FileSound, hpath]
  exact h

/-- A cycle that fails changes nothing about it. -/
theorem FileSound.error (h : FileSound collate print path old results seen files)
    (e : CompileError) :
    FileSound collate print path old (results ++ [.error e]) seen files := by
  rcases h with ⟨hold, hno⟩ | h
  · refine .inl ⟨hold, fun n hn => ?_⟩
    rcases List.mem_append.1 hn with hn | hn
    · exact hno n hn
    · cases List.mem_singleton.1 hn
  · exact .inr h

variable {R : Type} {f : R → Compile Nat} {g : Unit → Compile Nat}

theorem sustains_begin (h : FileSound collate print path old results seen files)
    (hrest : ∀ (s : Session) o, s.Idle →
      (g ()).Sustains collate print path old results (some (s.openTx o, [])) seen files) :
    (Compile.begin >>= g).Sustains collate print path old results tx seen files := by
  refine Prog.Sustains.run_bind ⟨fun e => ?_, fun s o hs => ?_⟩
  · exact ⟨fun _ _ => h.error _, fun _ heq => nomatch heq⟩
  · exact ⟨fun _ heq => (nomatch heq), fun _ _ => hrest s o hs⟩

theorem sustains_query {q : CompilerStmt R} {s : Session} {ws : List Write}
    (h : FileSound collate print path old results seen files)
    (hrest : ∀ o d r s' ws', (compilerPostgres collate).exec q s o
        ((compilerPostgres collate).applyAll ws d) = .ok (r, s', ws') →
      (f r).Sustains collate print path old results (some (s', ws ++ ws')) (insert d seen)
        files) :
    (Compile.query q >>= f).Sustains collate print path old results (some (s, ws)) seen files := by
  refine Prog.Sustains.run_bind ⟨fun e => ?_, ?_⟩
  · exact ⟨fun _ _ => h.error _, fun _ heq => nomatch heq⟩
  · rintro _ _ ⟨⟩ d o r s' ws' hexec
    refine ⟨fun _ heq => (nomatch heq), ?_⟩
    rintro _ ⟨⟩
    exact hrest o d r s' ws' hexec

theorem sustains_commit (h : FileSound collate print path old results seen files)
    (hrest : (g ()).Sustains collate print path old results none seen files) :
    (Compile.commit >>= g).Sustains collate print path old results tx seen files := by
  refine Prog.Sustains.run_bind fun r => ?_
  cases r with
  | ok a => exact ⟨fun _ heq => (nomatch heq), fun _ _ => hrest⟩
  | error e => exact ⟨fun _ _ => h.error _, fun _ heq => nomatch heq⟩

theorem FsCall.perform_fails (x : FsCall) (disk : Disk) (files : Files) :
    (x.perform disk true files).1 = .error disk.error := by
  cases x <;> rfl

/-- An operation: whether it fails or not, the file must be sound. -/
theorem sustains_fs {x : FsCall}
    (h : ∀ disk fails, FileSound collate print path old results seen
      (x.perform disk fails files).2)
    (hrest : ∀ disk files', x.perform disk false files = (.ok (), files') →
      (g ()).Sustains collate print path old results tx seen files') :
    (Compile.fs path x >>= g).Sustains collate print path old results tx seen files := by
  refine Prog.Sustains.run_bind ?_
  rintro y files' ⟨disk, fails, hperform⟩
  have hsound := h disk fails
  rw [hperform] at hsound
  refine ⟨hsound, ?_⟩
  cases y with
  | error e => exact ⟨fun _ _ => hsound.error _, fun _ heq => nomatch heq⟩
  | ok a =>
      refine ⟨fun _ heq => (nomatch heq), fun _ _ => ?_⟩
      cases fails with
      | false => exact hrest disk files' hperform
      | true => cases (x.perform_fails disk files).symm.trans (congrArg Prod.fst hperform)

theorem sustains_platformTx (h : FileSound collate print path old results seen files)
    (hrest : ∀ (s : Session) seen', seen ⊆ seen' → s.ForPlatform →
      (g ()).Sustains collate print path old results (some (s, [])) seen' files) :
    (Compile.platformTx >>= g).Sustains collate print path old results tx seen files := by
  rw [Compile.platformTx, bind_assoc]
  refine sustains_begin h fun s o hs => sustains_query h ?_
  rintro o' d r s' ws hexec
  obtain ⟨-, hset⟩ := Sql.require_bind_eq_ok.1 hexec
  cases hset
  exact hrest _ _ (Set.subset_insert _ _) (hs.forPlatform o)

/-- The policies are those of a store that has been seen. -/
theorem sustains_loadPolicies {g : List TenantPolicy → Compile Nat}
    (h : FileSound collate print path old results seen files)
    (hrest : ∀ seen' d, d ∈ seen' →
      FileSound collate print path old results seen' files →
      (g (loaded collate d)).Sustains collate print path old results none seen' files) :
    (loadPolicies >>= g).Sustains collate print path old results tx seen files := by
  simp only [loadPolicies, bind_assoc, pure_bind]
  refine sustains_platformTx h fun s seen₁ hsub hs => ?_
  have h₁ := h.mono hsub
  refine sustains_query h₁ ?_
  rintro o d r s' ws hexec
  cases hexec
  have h₂ := h₁.mono (Set.subset_insert d seen₁)
  refine sustains_commit h₂ ?_
  rw [tenantPolicies_selectPolicies hs]
  exact hrest _ d (Set.mem_insert _ _) h₂

/-- The file is replaced by the renaming, and by nothing before it. -/
theorem sustains_writeAtomic {d : Database} (hd : d ∈ seen)
    (h : FileSound collate print path old results seen files)
    (hrest : ∀ files', files' path = some (renderUcl print (loaded collate d)) →
      (g ()).Sustains collate print path old results tx seen files') :
    (writeAtomic path (renderUcl print (loaded collate d)) >>= g).Sustains collate print path old
      results tx seen files := by
  have htmp : path ≠ path ++ ".tmp" := by
    intro heq
    have hlen := congrArg String.length heq
    rw [String.length_append] at hlen
    have htmp : ".tmp".length = 4 := rfl
    omega
  -- what is done to the temporary file does not matter
  have aside : ∀ {files : Files} {f}, FileSound collate print path old results seen files →
      FileSound collate print path old results seen
        (Function.update files (path ++ ".tmp") f) :=
    fun h => h.of_path (Function.update_of_ne htmp _ _)
  generalize hcontents : renderUcl print (loaded collate d) = contents
  rw [hcontents] at hrest
  simp only [writeAtomic, bind_assoc]
  refine sustains_fs (fun _ _ => h) ?_
  rintro _ _ ⟨⟩
  have created : ∀ disk fails, FileSound collate print path old results seen
      ((FsCall.create (path ++ ".tmp")).perform disk fails files).2 := by
    intro disk fails
    show FileSound collate print path old results seen (if _ then _ else _)
    split
    · exact h
    · exact aside h
  refine sustains_fs created ?_
  intro disk files₁ hcreate
  have h₁ := created disk false
  rw [hcreate] at h₁
  refine sustains_fs (fun _ _ => aside h₁) ?_
  rintro _ _ ⟨⟩
  refine sustains_fs (fun _ _ => aside h₁) ?_
  rintro _ _ ⟨⟩
  have hrenamed : ∀ disk, ((FsCall.rename (path ++ ".tmp") path).perform disk false
      (Function.update files₁ (path ++ ".tmp") (some contents))).2 path = some contents := by
    intro disk
    exact (Function.update_of_ne htmp _ _).trans
      ((Function.update_self _ _ _).trans (Function.update_self _ _ _))
  refine sustains_fs (fun disk fails => ?_) fun disk files₂ hrename => ?_
  · cases fails with
    | true => exact aside h₁
    | false => exact .inr ⟨d, hd, (hrenamed disk).trans (congrArg some hcontents.symm)⟩
  · obtain rfl := congrArg Prod.snd hrename
    exact hrest _ (hrenamed disk)

/-- A cycle keeps the file sound. -/
theorem compileOnce_sustains (h : FileSound collate print path old results seen files) :
    (compileOnce print path).Sustains collate print path old results none seen files := by
  refine sustains_loadPolicies h fun seen₁ d hd h₁ => ?_
  split
  · refine sustains_writeAtomic hd h₁ fun files' hfile => ?_
    have sound : ∀ results seen', seen₁ ⊆ seen' →
        FileSound collate print path old results seen' files' :=
      fun _ _ hsub => .inr ⟨d, hsub hd, hfile⟩
    refine sustains_platformTx (sound _ _ subset_rfl) fun s seen₂ hsub₂ _ => ?_
    refine sustains_query (sound _ _ hsub₂) fun o d' r s' ws _ => ?_
    have hsub₃ := hsub₂.trans (Set.subset_insert d' seen₂)
    refine sustains_commit (sound _ _ hsub₃) ?_
    exact sound _ _ hsub₃
  · exact h₁.error _

end

/-! ### A cycle after a policy has been set -/

/-- A disk on which nothing fails. -/
def soundDisk : Disk := ⟨⟨"no space left on device"⟩, ""⟩

/-- A compiler that has just been deployed. -/
def newCompiler : Compiler := .init Session.new fun _ => none

/-- It after `n` steps that nothing disturbs. -/
def advanced (d : Database) (n : Nat) : Option Compiler :=
  newCompiler.advances (compilerPostgres fun a b => decide (a ≤ b))
    (FsCall.perform soundDisk false) (compileOnce printWhole "settings.conf").run (.number 50) d
    n

/-- A cycle has written the settings of one tenant. -/
def hasWritten (w : Compiler) : Bool :=
  w.results.any fun r => decide (r.toOption = some 1)

def policySet : Request → Answer → Bool
  | .http _ (.putPolicy T _), .http ⟨200, .policy _⟩ => decide (T = .number 2)
  | _, _ => false

theorem compiled_equipped :
    ∃ (σ : State) (w : Compiler),
      Pipeline.Reached (fun a b => decide (a ≤ b)) printWhole "settings.conf" false
        (fun _ _ => False) ⟨σ, newCompiler⟩ ∧
      Pipeline.Run (fun a b => decide (a ≤ b)) printWhole "settings.conf" false
        (fun _ _ => False) ⟨σ, newCompiler⟩ ⟨σ, w⟩ ∧
      (∃ n, .ok n ∈ w.results) ∧
      (∃ e ∈ σ.replies, (∃ caller req, e.request = .http caller (.putPolicy (.number 2) req)) ∧
        ∃ p, e.answer = .http (.ok (.policy p))) ∧
      wholePolicies σ.store = true ∧ knowsActive σ.store (.number 2) = true := by
  have hplay : ((play false (fun _ _ => False) equipped).any fun σ =>
      (answeredBy σ 3 policySet && (advanced σ.store 15).any hasWritten) &&
        (wholePolicies σ.store && knowsActive σ.store (.number 2))) = true := by
    decide +kernel
  obtain ⟨σ, hσ, h⟩ := reached_of_play hplay
  simp only [Bool.and_eq_true] at h
  obtain ⟨⟨hanswered, hadvanced⟩, hwhole, hactive⟩ := h
  obtain ⟨w, hw, hwritten⟩ := (Option.any_eq_true _ _).1 hadvanced
  have hact : ∀ (x : FsCall) (files : Files), x.Acts files (x.perform soundDisk false files).1
      (x.perform soundDisk false files).2 := fun x files => ⟨soundDisk, false, rfl⟩
  refine ⟨σ, w, ⟨σ, _, hσ, .refl⟩, Beside.run_of_advances hact hw, ?_, ?_, hwhole, hactive⟩
  · obtain ⟨r, hr, hone⟩ := List.any_eq_true.1 hwritten
    cases r with
    | error e => cases of_decide_eq_true hone
    | ok n => exact ⟨n, hr⟩
  · obtain ⟨e, he, -, h⟩ := reply_of_answeredBy hanswered
    refine ⟨e, he, ?_⟩
    unfold policySet at h
    split at h
    · rename_i caller T req p hreq hanswer
      obtain rfl := of_decide_eq_true h
      exact ⟨⟨caller, req, hreq⟩, p, hanswer⟩
    · cases h

/-! ### The settings file -/

section

variable {collate : String → String → Bool} {print : F64 → String} {path : String}
  {sesame : Bool} {answers : ProvisionUser → Except ProviderError Uuid → Prop} {π π' : Pipeline}
  {σ σ' : State}

theorem leads_of_steps (h : Relation.ReflTransGen (fun σ σ' : State =>
    ∃ l, Steps sesame answers σ l σ') σ σ') : Leads sesame answers σ σ' := by
  induction h with
  | refl => exact ⟨[], .nil⟩
  | tail _ hstep ih =>
      obtain ⟨ls, hrun⟩ := ih
      obtain ⟨l, hstep⟩ := hstep
      exact ⟨ls ++ [l], hrun.snoc hstep⟩

/-- A run from between two cycles. -/
theorem Pipeline.Run.sustained (h : Pipeline.Run collate print path sesame answers π π')
    (hjob : π.worker.job = none) (hidle : π.worker.session.Idle) :
    ∃ new seen, Sustained (compilerPostgres collate) FsCall.Acts (fun σ : State => σ.store)
      (fun σ σ' => ∃ l, Steps sesame answers σ l σ') Session.Idle
      (FileSound collate print path (π.worker.outside path)) π π' new seen :=
  Beside.Run.sustained (fun _ _ _ _ => FileSound.mono) Session.idle_closeTx
    (fun _ _ _ => compileOnce_sustains) h hjob hidle (.inl ⟨rfl, fun _ => List.not_mem_nil⟩)

theorem Pipeline.Reached.parts (h : Pipeline.Reached collate print path sesame answers π) :
    OpenGroupware.Reached sesame answers π.env ∧ π.worker.session.Idle := by
  obtain ⟨σ, files, hσ, hrun⟩ := h
  obtain ⟨new, seen, hsustained⟩ := Pipeline.Run.sustained hrun rfl Session.idle_new
  exact ⟨(leads_of_steps (Beside.Run.env_moves hrun)).reached hσ, hsustained.settled⟩

/-- The settings file never shows anything but the databases of one moment: as
long as no cycle has succeeded it may be the one that was there, and from then
on the moment is after the cycles began. -/
theorem settings_snapshot (h : Pipeline.Reached collate print path sesame answers π)
    (hjob : π.worker.job = none) (hrun : Pipeline.Run collate print path sesame answers π π') :
    ∃ new, π'.worker.results = π.worker.results ++ new ∧
      ((π'.worker.outside path = π.worker.outside path ∧ ∀ n, .ok n ∉ new) ∨
        ∃ ρ : State, Leads sesame answers π.env ρ ∧ Leads sesame answers ρ π'.env ∧
          π'.worker.outside path = some (renderUcl print (loaded collate ρ.store))) := by
  obtain ⟨new, seen, hsustained⟩ := Pipeline.Run.sustained hrun hjob h.parts.2
  refine ⟨new, hsustained.results, ?_⟩
  rcases hsustained.kept with hold | ⟨d, hd, hfile⟩
  · exact .inl hold
  · obtain ⟨ρ, hρ, hρ', rfl⟩ := hsustained.visited d hd
    exact .inr ⟨ρ, leads_of_steps hρ, leads_of_steps hρ', hfile⟩

end

theorem settings_snapshot_equipped :
    ∃ (π π' : Pipeline) (ρ : State),
      Pipeline.Reached (fun a b => decide (a ≤ b)) printWhole "settings.conf" false
        (fun _ _ => False) π ∧
      Pipeline.Run (fun a b => decide (a ≤ b)) printWhole "settings.conf" false
        (fun _ _ => False) π π' ∧
      Leads false (fun _ _ => False) π.env ρ ∧ Leads false (fun _ _ => False) ρ π'.env ∧
      π'.worker.outside "settings.conf" =
        some (renderUcl printWhole (loaded (fun a b => decide (a ≤ b)) ρ.store)) := by
  obtain ⟨σ, w, hreached, hrun, ⟨n, hn⟩, -, -, -⟩ := compiled_equipped
  obtain ⟨new, hnew, ⟨-, hno⟩ | ⟨ρ, hρ, hρ', hfile⟩⟩ := settings_snapshot hreached rfl hrun
  · obtain rfl : w.results = new := hnew
    exact absurd hn (hno n)
  · exact ⟨_, _, ρ, hreached, hrun, hρ, hρ', hfile⟩

/-! ### Policies in the settings file -/

/-- The policy that the write puts for a tenant. -/
def Write.policyFor (T : Uuid) : Write → Option AbusePolicy
  | .abusePolicy c => if c.new.tenantId = T then some c.new else none
  | _ => none

/-- The policies that have been put for a tenant, in order. -/
def policiesPut (T : Uuid) (history : List (Commit Request Write)) : List AbusePolicy :=
  (history.flatMap Commit.writes).filterMap (Write.policyFor T)

theorem find?_applyAll (T : Uuid) (ws : List Write) (d : Database) :
    (postgres.applyAll ws d).abusePolicy.find? T =
      ((ws.filterMap (Write.policyFor T)).getLast?).or (d.abusePolicy.find? T) := by
  induction ws generalizing d with
  | nil => rfl
  | cons w ws ih =>
      rw [Engine.applyAll_cons, ih]
      cases w with
      | abusePolicy c =>
          have hput : (postgres.apply (.abusePolicy c) d).abusePolicy.find? T =
              if c.new.tenantId = T then some c.new else d.abusePolicy.find? T := Table.find?_put
          rw [hput, List.filterMap_cons, Write.policyFor]
          split
          · rw [List.getLast?_cons]
            cases (ws.filterMap (Write.policyFor T)).getLast? <;> rfl
          · rfl
      | _ => rfl

section

variable {collate : String → String → Bool} {print : F64 → String} {path : String}
  {sesame : Bool} {answers : ProvisionUser → Except ProviderError Uuid → Prop} {π π' : Pipeline}
  {σ : State}

/-- The policy in the table is the last one that has been put. -/
theorem find?_eq_getLast? (h : Reached sesame answers σ) (T : Uuid) :
    σ.store.abusePolicy.find? T = (policiesPut T σ.history).getLast? := by
  have hstore := Reachable.store_eq h
  rw [hstore]
  refine (find?_applyAll T _ Database.empty).trans ?_
  exact Option.or_none

/-- Whoever is told of a policy has put it. -/
theorem acknowledged_put (h : Reached sesame answers σ)
    {e : Reply Request Database Write Answer} (he : e ∈ σ.replies) {caller : Caller} {T : Uuid}
    {req : SetAbusePolicy} (hreq : e.request = .http caller (.putPolicy T req)) {p : AbusePolicy}
    (hanswer : e.answer = .http (.ok (.policy p))) :
    (p.reject = req.reject ∧ p.addHeader = req.addHeader ∧ p.greylist = req.greylist) ∧
      p ∈ policiesPut T σ.history := by
  have hstarted := reached_started sesame answers
  obtain ⟨d, -, -, hret⟩ := hstarted.replies_ret h e he
  have hchain := (hstarted.chain h).2 e he
  have hret : Answered e.request e.since e.commits d e.answer := hret
  suffices (p.reject = req.reject ∧ p.addHeader = req.addHeader ∧ p.greylist = req.greylist) ∧
      ∃ ws ∈ e.commits, ∃ old, .abusePolicy ⟨old, p⟩ ∈ ws ∧ p.tenantId = T by
    obtain ⟨hrow, ws, hws, old, hput, hT⟩ := this
    refine ⟨hrow, List.mem_filterMap.2 ⟨_, List.mem_flatMap.2
      ⟨_, h.recorded.mem_history he hws, hput⟩, ?_⟩⟩
    rw [Write.policyFor, if_pos hT]
  rw [hreq, hanswer] at hret
  rw [hreq] at hchain
  generalize hok : Response.ok (.policy p) = r at hret
  generalize e.commits = cs at hret hchain
  cases hret with
  | @refused _ _ _ _ error _ =>
      have hstatus := status_intoResponse error
      rw [← hok] at hstatus
      cases Nat.not_le_of_lt (show 200 < 400 by decide) hstatus
  | served hserved =>
      cases hserved with
      | putPolicy =>
          cases hok
          obtain ⟨d', -, -, hpost⟩ := hchain.first
          cases hpost with
          | putPolicy _ _ _ row _ =>
              exact ⟨row.2, _, List.mem_cons_self, _, List.mem_cons_self, row.1⟩

/-- What has been acknowledged reaches the mail plane: once a cycle has
succeeded that began after a policy was acknowledged, the settings file is of a
moment at which the policy of the tenant was this one or one put later, and has
a block that shows it. -/
theorem policy_reaches_settings (h : Pipeline.Reached collate print path sesame answers π)
    (hjob : π.worker.job = none) {e : Reply Request Database Write Answer}
    (he : e ∈ π.env.replies) {caller : Caller} {T : Uuid} {req : SetAbusePolicy}
    (hreq : e.request = .http caller (.putPolicy T req)) {p : AbusePolicy}
    (hanswer : e.answer = .http (.ok (.policy p)))
    (hrun : Pipeline.Run collate print path sesame answers π π')
    {new : List (Except CompileError Nat)}
    (hnew : π'.worker.results = π.worker.results ++ new) {n : Nat} (hn : .ok n ∈ new) :
    (p.reject = req.reject ∧ p.addHeader = req.addHeader ∧ p.greylist = req.greylist) ∧
      ∃ (ρ : State) (text : String), Leads sesame answers π.env ρ ∧
        Leads sesame answers ρ π'.env ∧ π'.worker.outside path = some text ∧
        text = renderUcl print (loaded collate ρ.store) ∧
        ∃ before after, policiesPut T ρ.history = before ++ p :: after ∧
          ∀ read, ρ.store.Legible print read → ∀ t, ρ.store.emits t → t.id = T →
            ∃ body, HasBlock text.toList (settingsId t.slug).toList body ∧
              ShowsPolicy read body (after.getLast?.getD p) := by
  obtain ⟨hσ, hidle⟩ := h.parts
  refine ⟨(acknowledged_put hσ he hreq hanswer).1, ?_⟩
  obtain ⟨new', seen, hsustained⟩ := Pipeline.Run.sustained hrun hjob hidle
  obtain rfl : new' = new := List.append_cancel_left (hsustained.results.symm.trans hnew)
  rcases hsustained.kept with ⟨-, hno⟩ | ⟨d, hd, hfile⟩
  · exact absurd hn (hno n)
  obtain ⟨ρ, hρ, hρ', rfl⟩ := hsustained.visited d hd
  have hleads := leads_of_steps hρ
  refine ⟨ρ, _, hleads, leads_of_steps hρ', hfile, rfl, ?_⟩
  have hreached := hleads.reached hσ
  have heρ : e ∈ ρ.replies := by
    obtain ⟨ls, hls⟩ := hleads
    exact hls.replies_subset he
  obtain ⟨before, after, hput⟩ :=
    List.append_of_mem (acknowledged_put hreached heρ hreq hanswer).2
  refine ⟨before, after, hput, ?_⟩
  rintro read hprint t ht rfl
  have hinv : Consistent ρ.store := ((reached_started sesame answers).inv hreached).store
  have hd := hinv.toConstraints.names
  obtain ⟨body, hbody⟩ := Database.exists_hasBlock collate hd hprint ht
  obtain ⟨-, hsays⟩ := Database.hasBlock_says hd hprint ht.1 hbody
  have hfind : ρ.store.abusePolicy.find? t.id = some (after.getLast?.getD p) := by
    rw [find?_eq_getLast? hreached, hput, List.getLast?_append_cons, List.getLast?_cons]
  have hshows := hsays.shows 0
  rw [hfind] at hshows
  exact ⟨body, hbody, hshows⟩

end

theorem policy_reaches_settings_equipped :
    ∃ (π π' : Pipeline) (ρ : State) (p : AbusePolicy) (text : String) (t : Tenant) (body : Items),
      Pipeline.Reached (fun a b => decide (a ≤ b)) printWhole "settings.conf" false
        (fun _ _ => False) π ∧
      Pipeline.Run (fun a b => decide (a ≤ b)) printWhole "settings.conf" false
        (fun _ _ => False) π π' ∧
      (∃ e ∈ π.env.replies, e.answer = .http (.ok (.policy p))) ∧
      π'.worker.outside "settings.conf" = some text ∧ ρ.store.emits t ∧ t.id = .number 2 ∧
      ∃ before after, policiesPut (.number 2) ρ.history = before ++ p :: after ∧
        HasBlock text.toList (settingsId t.slug).toList body ∧
        ShowsPolicy readWhole body (after.getLast?.getD p) := by
  obtain ⟨σ, w, hreached, hrun, ⟨n, hn⟩, ⟨e, he, ⟨caller, req, hreq⟩, p, hanswer⟩, hwhole,
    hactive⟩ := compiled_equipped
  obtain ⟨-, ρ, text, ⟨ls, hls⟩, ⟨ls', hls'⟩, hfile, -, before, after, hput, hblock⟩ :=
    policy_reaches_settings hreached rfl he hreq hanswer hrun rfl hn
  -- the services are where they were
  have hstore : ρ.store = σ.store := hls.store_between hls'
  rw [← hstore] at hwhole hactive
  obtain ⟨t, ht, hid⟩ := emits_of_knowsActive hactive
  obtain ⟨body, hbody, hshows⟩ := hblock readWhole (legible_of_wholePolicies hwhole) t ht hid
  exact ⟨_, _, ρ, p, text, t, body, hreached, hrun, ⟨e, he, hanswer⟩, hfile, ht, hid, before,
    after, hput, hbody, hshows⟩

end OpenGroupware
