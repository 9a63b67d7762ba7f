import OpenGroupware.Services
import OpenGroupware.Settings
import OpenGroupware.Transactional.Faults

/-!
A compile cycle in which anything may fail. The settings file and the audit
log change together unless a step of the audit transaction fails after the
file has been replaced.
-/

namespace OpenGroupware

open Relational Transactional

/-! ### The file system -/

abbrev Files : Type := String → Option String

/-- What failing operations report, and what a failing write leaves behind. -/
structure Disk where
  error : IoError
  torn : String

def Disk.outcome (disk : Disk) (fails : Bool) : Except IoError Unit :=
  if fails then .error disk.error else .ok ()

/-- What an operation does. No file has a NUL in its name. -/
def FsCall.perform (disk : Disk) (fails : Bool) : FsCall → Files → Except IoError Unit × Files
  | .createParent _, files => (disk.outcome fails, files)
  | .create path, files =>
      (disk.outcome (fails || !textOk path),
        if fails || !textOk path then files else Function.update files path (some ""))
  | .writeAll path contents, files =>
      (disk.outcome fails,
        Function.update files path (some (if fails then disk.torn else contents)))
  | .flush _, files => (disk.outcome fails, files)
  | .rename source target, files =>
      (disk.outcome fails,
        if fails then files
        else Function.update (Function.update files target (files source)) source none)

/-- The machine the compiler runs on: oracles of the database, and the
interactions that fail. -/
structure Host where
  oracle : Nat → Oracle
  fails : Nat → Bool
  disk : Disk

def Host.hazards (host : Host) : Hazards Oracle FsCall (Except IoError Unit) Files where
  oracle := host.oracle
  fails := host.fails
  respond fails x files := x.perform host.disk fails files

/-- A compile cycle from `z`: its result and where it ends. -/
def compileCycle (collate : String → String → Bool) (print : F64 → String) (host : Host)
    (path : String) (z : Scene Session Database Files) :
    Except CompileError Nat × Scene Session Database Files :=
  let out := attempt (compilerPostgres collate) host.hazards (compileOnce print path).run none z
  (out.1, out.2.2.release (compilerPostgres collate) out.2.1)

/-! ### The parts of a cycle -/

/-- Neither the database nor the file at `path` has changed since `z₀`. -/
def Intact (path : String) (z₀ z : Scene Session Database Files) : Prop :=
  z.store = z₀.store ∧ z.outside path = z₀.outside path

section

variable (collate : String → String → Bool) (host : Host) {path : String}
  {z : Scene Session Database Files}

/-- A platform transaction begins; it sees everything. -/
theorem stage_platformTx (Safe : Scene Session Database Files → Prop) (hidle : z.session.Idle)
    (hsafe : ∀ s n, Safe { z with session := s, clock := n }) :
    ∃ s : Session, s.ForPlatform ∧
      Stage (compilerPostgres collate) host.hazards Safe 2 Compile.platformTx none z ()
        (some (s, [])) { z with clock := z.clock + 2 } := by
  have hbegin : Stage (compilerPostgres collate) host.hazards Safe 1 Compile.begin none z ()
      (some (z.session.openTx (host.oracle z.clock), [])) z.tick := .start rfl (hsafe _ _)
  exact ⟨_, hidle.forPlatform _, hbegin.bind (.stmt rfl rfl (hsafe _ _))⟩

/-- Reading the desired state changes nothing. -/
theorem stage_loadPolicies (path : String) (hidle : z.session.Idle) :
    ∃ s : Session, s.Idle ∧
      Stage (compilerPostgres collate) host.hazards (Intact path z) 4 loadPolicies none z
        (loaded collate z.store) none { z with session := s, clock := z.clock + 4 } := by
  obtain ⟨s, hs, hbegin⟩ := stage_platformTx collate host (Intact path z) hidle
    fun _ _ => ⟨rfl, rfl⟩
  refine ⟨s.closeTx, Session.idle_closeTx s, ?_⟩
  rw [← tenantPolicies_selectPolicies hs]
  have hquery : Stage (compilerPostgres collate) host.hazards (Intact path z) 1
      (Compile.query .selectPolicies) (some (s, [])) { z with clock := z.clock + 2 }
      (Sql.selectPolicies collate s z.store) (some (s, [])) { z with clock := z.clock + 3 } :=
    .stmt rfl rfl ⟨rfl, rfl⟩
  have hcommit : Stage (compilerPostgres collate) host.hazards (Intact path z) 1 Compile.commit
      (some (s, [])) { z with clock := z.clock + 3 } () none
      { z with session := s.closeTx, clock := z.clock + 4 } := .commit rfl ⟨rfl, rfl⟩
  exact hbegin.bind (hquery.bind (hcommit.bind (.pure _)))

/-- The file is replaced at once, at the end. -/
theorem stage_writeAtomic {z₀ : Scene Session Database Files}
    (z : Scene Session Database Files) (hz : Intact path z₀ z)
    (htext : textOk path = true) (contents : String) :
    ∃ files : Files, files path = some contents ∧
      Stage (compilerPostgres collate) host.hazards (Intact path z₀) 5
        (writeAtomic path contents) none z () none
        { z with outside := files, clock := z.clock + 5 } := by
  have htmp : path ≠ path ++ ".tmp" := by
    intro h
    have hlen := congrArg String.length h
    rw [String.length_append] at hlen
    have htmp : ".tmp".length = 4 := rfl
    omega
  have htext' : textOk (path ++ ".tmp") = true := by
    rw [textOk_append, htext]
    decide
  -- the temporary file comes and goes
  let files (f : Option String) : Files := Function.update z.outside (path ++ ".tmp") f
  have hsafe : ∀ f n, Intact path z₀ { z with outside := files f, clock := n } :=
    fun f n => ⟨hz.1, (Function.update_of_ne htmp _ _).trans hz.2⟩
  have hcreate : (FsCall.create (path ++ ".tmp")).perform host.disk false z.outside =
      (.ok (), files (some "")) := by
    simp only [FsCall.perform, htext']
    rfl
  have hwrite : ∀ fails, (FsCall.writeAll (path ++ ".tmp") contents).perform host.disk fails
      (files (some "")) = (host.disk.outcome fails,
        files (some (if fails then host.disk.torn else contents))) := fun fails =>
    congrArg (Prod.mk _) (Function.update_idem _ _ _)
  have hparentStage : Stage (compilerPostgres collate) host.hazards (Intact path z₀) 1
      (Compile.fs path (.createParent path)) none z () none { z with clock := z.clock + 1 } :=
    .call rfl rfl rfl hz
  have hcreateStage : Stage (compilerPostgres collate) host.hazards (Intact path z₀) 1
      (Compile.fs path (.create (path ++ ".tmp"))) none { z with clock := z.clock + 1 } () none
      { z with outside := files (some ""), clock := z.clock + 2 } := .call rfl hcreate rfl hz
  have hwriteStage : Stage (compilerPostgres collate) host.hazards (Intact path z₀) 1
      (Compile.fs path (.writeAll (path ++ ".tmp") contents)) none
      { z with outside := files (some ""), clock := z.clock + 2 } () none
      { z with outside := files (some contents), clock := z.clock + 3 } := by
    refine .call rfl (hwrite false) rfl ?_
    have htorn := congrArg Prod.snd (hwrite true)
    exact ⟨hz.1, (congrFun htorn path).trans (hsafe _ 0).2⟩
  have hflushStage : Stage (compilerPostgres collate) host.hazards (Intact path z₀) 1
      (Compile.fs path (.flush (path ++ ".tmp"))) none
      { z with outside := files (some contents), clock := z.clock + 3 } () none
      { z with outside := files (some contents), clock := z.clock + 4 } :=
    .call rfl rfl rfl (hsafe _ _)
  have hrenameStage : Stage (compilerPostgres collate) host.hazards (Intact path z₀) 1
      (Compile.fs path (.rename (path ++ ".tmp") path)) none
      { z with outside := files (some contents), clock := z.clock + 4 } () none
      { z with
        outside := Function.update (Function.update (files (some contents)) path
          (files (some contents) (path ++ ".tmp"))) (path ++ ".tmp") none
        clock := z.clock + 5 } := .call rfl rfl rfl (hsafe _ _)
  refine ⟨_, ?_, hparentStage.bind (hcreateStage.bind (hwriteStage.bind
    (hflushStage.bind hrenameStage)))⟩
  rw [Function.update_of_ne htmp, Function.update_self]
  exact Function.update_self _ _ _

theorem attempt_fs (x : FsCall) :
    attempt (compilerPostgres collate) host.hazards (Compile.fs path x).run none z =
      ((x.perform host.disk (host.fails z.clock) z.outside).1.mapError (CompileError.io path), none,
        { z.tick with outside := (x.perform host.disk (host.fails z.clock) z.outside).2 }) := rfl

/-- No file is created under a name the file system refuses. -/
theorem writeAtomic_refused (z : Scene Session Database Files) (htext : textOk path = false)
    (contents : String) :
    ∃ e tx z', attempt (compilerPostgres collate) host.hazards (writeAtomic path contents).run
      none z = (.error e, tx, z') ∧ Intact path z z' := by
  have htext' : textOk (path ++ ".tmp") = false := by
    rw [textOk_append, htext]
    rfl
  have hcreate : ∀ fails files, (FsCall.create (path ++ ".tmp")).perform host.disk fails files =
      (.error host.disk.error, files) := by
    intro fails files
    simp only [FsCall.perform, htext', Bool.not_false, Bool.or_true]
    rfl
  unfold writeAtomic
  rw [attempt_run_bind, attempt_fs]
  cases host.fails z.clock with
  | true => exact ⟨_, _, _, rfl, rfl, rfl⟩
  | false =>
      refine ⟨.io path host.disk.error, none, z.tick.tick, ?_, rfl, rfl⟩
      change attempt (compilerPostgres collate) host.hazards
        (Compile.fs path (.create (path ++ ".tmp")) >>= fun _ => _).run none z.tick = _
      rw [attempt_run_bind, attempt_fs, hcreate]
      rfl

/-- What a compilation writes to the audit log. -/
def compiledEntry (path : String) (policies : List TenantPolicy) : AuditEntry where
  tenantId := none
  actor := "config-compiler"
  action := "config.compiled"
  entityType := "rspamd_settings"
  entityId := path
  payload := .obj [("tenants", .int policies.length),
    ("domains", .int (policies.map fun p => p.domains.length).sum)]

/-- The audit transaction of a cycle. -/
def recordCompiled (path : String) (policies : List TenantPolicy) : Compile Nat := do
  Compile.platformTx
  Compile.query (.insertAudit .control (compiledEntry path policies))
  Compile.commit
  return policies.length

/-- It adds one entry. -/
theorem stage_record (z : Scene Session Database Files) (hidle : z.session.Idle)
    (htext : textOk path = true) (policies : List TenantPolicy) :
    ∃ s : Session,
      Stage (compilerPostgres collate) host.hazards
        (fun y => y.store = z.store ∧ y.outside = z.outside) 4
        (recordCompiled path policies) none z policies.length none
        { z with
          store := { z.store with
            auditLog := z.store.auditLog ++ [compiledEntry path policies] }
          session := s
          clock := z.clock + 4 } := by
  obtain ⟨s, hs, hbegin⟩ := stage_platformTx collate host
    (fun y => y.store = z.store ∧ y.outside = z.outside) hidle fun _ _ => ⟨rfl, rfl⟩
  refine ⟨s.closeTx, ?_⟩
  have hinsert : (compilerPostgres collate).exec
      (.insertAudit .control (compiledEntry path policies)) s (host.hazards.oracle (z.clock + 2))
      z.store = .ok ((), s, [.audit (compiledEntry path policies)]) := by
    refine Sql.keep_eq_ok.2 ⟨Sql.insertAudit_eq_ok ?_ (hs.sees _) fun _ => rfl, rfl⟩
    simp only [compiledEntry, htext, Bool.and_true, Json.storable, Json.storableMembers]
    decide
  have hquery : Stage (compilerPostgres collate) host.hazards
      (fun y => y.store = z.store ∧ y.outside = z.outside) 1
      (Compile.query (.insertAudit .control (compiledEntry path policies))) (some (s, []))
      { z with clock := z.clock + 2 } () (some (s, [.audit (compiledEntry path policies)]))
      { z with clock := z.clock + 3 } := .stmt rfl hinsert ⟨rfl, rfl⟩
  have hcommit : Stage (compilerPostgres collate) host.hazards
      (fun y => y.store = z.store ∧ y.outside = z.outside) 1 Compile.commit
      (some (s, [.audit (compiledEntry path policies)])) { z with clock := z.clock + 3 } () none
      { z with
        store := { z.store with auditLog := z.store.auditLog ++ [compiledEntry path policies] }
        session := s.closeTx
        clock := z.clock + 4 } := .commit rfl ⟨rfl, rfl⟩
  exact hbegin.bind (hquery.bind (hcommit.bind (.pure _)))

end

/-! ### All or nothing -/

/-- A cycle that succeeds has written the rendering of the state it read and
one audit entry about it; one that fails has done neither. -/
structure AllOrNothing (collate : String → String → Bool) (print : F64 → String) (path : String)
    (z : Scene Session Database Files)
    (out : Except CompileError Nat × Scene Session Database Files) : Prop where
  done : ∀ n, out.1 = .ok n → n = (loaded collate z.store).length ∧
    out.2.outside path = some (renderUcl print (loaded collate z.store)) ∧
    out.2.store = { z.store with
      auditLog := z.store.auditLog ++ [compiledEntry path (loaded collate z.store)] }
  undone : ∀ e, out.1 = .error e →
    out.2.outside path = z.outside path ∧ out.2.store = z.store

/-- The file is replaced: the document is valid, the path names a file, and no
interaction up to the renaming fails. -/
structure Host.Replaces (collate : String → String → Bool) (host : Host) (path : String)
    (z : Scene Session Database Files) : Prop where
  valid : settingsSchema.valid (renderDoc (loaded collate z.store)) = true
  named : textOk path = true
  passes : ∀ i < 9, host.fails (z.clock + i) = false

/-- An interaction of the audit transaction fails. -/
def Host.AuditFails (host : Host) (z : Scene Session Database Files) : Prop :=
  ∃ i < 4, host.fails (z.clock + 9 + i) = true

section

variable {collate : String → String → Bool} {print : F64 → String} {host : Host} {path : String}
  {z : Scene Session Database Files}

/-- The two ways up to the renaming: the cycle returns with nothing changed, or
the file is replaced and the audit transaction is left. -/
theorem compileOnce_cases (collate : String → String → Bool) (print : F64 → String) (host : Host)
    (path : String) (hidle : z.session.Idle) :
    (¬host.Replaces collate path z ∧ ∃ e tx y, attempt (compilerPostgres collate) host.hazards
        (compileOnce print path).run none z = (.error e, tx, y) ∧ Intact path z y) ∨
      host.Replaces collate path z ∧ ∃ (files : Files) (s : Session), s.Idle ∧
        files path = some (renderUcl print (loaded collate z.store)) ∧
        attempt (compilerPostgres collate) host.hazards (compileOnce print path).run none z =
          attempt (compilerPostgres collate) host.hazards
            (recordCompiled path (loaded collate z.store)).run none
              ⟨z.store, files, s, z.clock + 9⟩ := by
  have hclear : ∀ {c n : Nat}, ¬(∃ i < n, host.fails (c + i) = true) →
      ∀ i < n, host.fails (c + i) = false := fun h i hi =>
    Bool.eq_false_iff.2 fun hfail => h ⟨i, hi, hfail⟩
  obtain ⟨s, hs, hload⟩ := stage_loadPolicies collate host path hidle
  unfold compileOnce
  rw [attempt_run_bind]
  by_cases hloads : ∃ i < 4, host.fails (z.clock + i) = true
  · obtain ⟨i, hi, hfail⟩ := hloads
    obtain ⟨e, tx, y, hrun, hy⟩ := hload.aborts i hi hfail
    refine .inl ⟨fun h => ?_, e, tx, y, by rw [hrun], hy⟩
    rw [h.passes i (by omega)] at hfail
    cases hfail
  rw [hload.through (hclear hloads)]
  by_cases hvalid : settingsSchema.valid (renderDoc (loaded collate z.store)) = true
  · simp only [hvalid, if_true]
    rw [attempt_run_bind]
    cases htext : textOk path with
    | false =>
        obtain ⟨e, tx, y, hrun, hy⟩ := writeAtomic_refused collate host
          ⟨z.store, z.outside, s, z.clock + 4⟩ htext (renderUcl print (loaded collate z.store))
        refine .inl ⟨fun h => ?_, e, tx, y, by rw [hrun], hy⟩
        rw [h.named] at htext
        cases htext
    | true =>
        obtain ⟨files, hfiles, hwrite⟩ := stage_writeAtomic collate host
          ⟨z.store, z.outside, s, z.clock + 4⟩ (show Intact path z _ from ⟨rfl, rfl⟩) htext
          (renderUcl print (loaded collate z.store))
        by_cases hwrites : ∃ i < 5, host.fails (z.clock + 4 + i) = true
        · obtain ⟨i, hi, hfail⟩ := hwrites
          obtain ⟨e, tx, y, hrun, hy⟩ := hwrite.aborts i hi hfail
          refine .inl ⟨fun h => ?_, e, tx, y, by rw [hrun], hy⟩
          rw [Nat.add_assoc, h.passes (4 + i) (by omega)] at hfail
          cases hfail
        · refine .inr ⟨⟨hvalid, htext, fun i hi => ?_⟩, files, s, hs, hfiles, ?_⟩
          · by_cases hfirst : i < 4
            · exact hclear hloads i hfirst
            · have hrest := hclear hwrites (i - 4) (by omega)
              rwa [Nat.add_assoc, Nat.add_sub_cancel' (by omega)] at hrest
          · rw [hwrite.through (hclear hwrites)]
            rfl
  · simp only [hvalid]
    exact .inl ⟨fun h => hvalid h.valid, _, _, _, rfl, rfl, rfl⟩

/-- A cycle is all or nothing unless its audit fails after the file has been
replaced by another. -/
theorem all_or_nothing_iff (hidle : z.session.Idle) :
    AllOrNothing collate print path z (compileCycle collate print host path z) ↔
      ¬(host.Replaces collate path z ∧ host.AuditFails z) ∨
        z.outside path = some (renderUcl print (loaded collate z.store)) := by
  unfold compileCycle
  rcases compileOnce_cases collate print host path hidle with
    ⟨hno, e, tx, y, hrun, hy⟩ | ⟨hreplaces, files, s, hs, hfiles, hrun⟩
  · refine iff_of_true ?_ (.inl fun h => hno h.1)
    rw [hrun]
    refine ⟨nofun, fun _ _ => ⟨?_, Scene.release_store.trans hy.1⟩⟩
    exact (congrFun Scene.release_outside path).trans hy.2
  · rw [hrun]
    obtain ⟨s', hrecord⟩ := stage_record collate host
      ⟨z.store, files, s, z.clock + 9⟩ hs hreplaces.named (loaded collate z.store)
    by_cases haudit : host.AuditFails z
    · obtain ⟨i, hi, hfail⟩ := id haudit
      obtain ⟨e, tx, y, hrun, hstore, hfile⟩ := hrecord.aborts i hi hfail
      have houtside : (y.release (compilerPostgres collate) tx).outside path =
          some (renderUcl print (loaded collate z.store)) := by
        rw [Scene.release_outside, hfile]
        exact hfiles
      rw [hrun]
      constructor
      · intro h
        exact .inr ((h.undone e rfl).1.symm.trans houtside)
      · rintro (h | h)
        · exact absurd ⟨hreplaces, haudit⟩ h
        · exact ⟨nofun, fun _ _ => ⟨houtside.trans h.symm, Scene.release_store.trans hstore⟩⟩
    · rw [hrecord.through fun i hi => Bool.eq_false_iff.2 fun h => haudit ⟨i, hi, h⟩]
      refine iff_of_true ⟨?_, nofun⟩ (.inl fun h => haudit h.2)
      rintro n ⟨⟩
      exact ⟨rfl, hfiles, rfl⟩

end

/-! ### A lost audit entry -/

/-- The interactions numbered `lost` fail. -/
def failingHost (lost : List Nat) : Host where
  oracle := .number
  fails n := lost.contains n
  disk := ⟨⟨"no space left on device"⟩, "tor"⟩

/-- No tenants and no settings file yet. -/
def freshScene : Scene Session Database Files := ⟨Database.empty, fun _ => none, Session.new, 0⟩

/-- The file is replaced and the entry about it is not written. -/
theorem unaudited_compile_fails :
    ¬AllOrNothing (fun a b => decide (a ≤ b)) (fun _ => "") "settings.conf" freshScene
      (compileCycle (fun a b => decide (a ≤ b)) (fun _ => "") (failingHost [11]) "settings.conf"
        freshScene) := by
  intro h
  have hfile : (compileCycle (fun a b => decide (a ≤ b)) (fun _ => "") (failingHost [11])
      "settings.conf" freshScene).2.outside "settings.conf" = some header := by
    decide +kernel
  have hsame := (h.undone (.db .connection) rfl).1
  rw [hfile] at hsame
  cases hsame

/-- Two tenants, and the settings file from a time when there were none. -/
def staleScene : Scene Session Database Files :=
  ⟨neighbours, fun path => if path = "settings.conf" then some header else none, Session.new, 0⟩

/-- A cycle on it. -/
def staleCycle (lost : List Nat) :
    Except CompileError Nat × Scene Session Database Files :=
  compileCycle (fun a b => decide (a ≤ b)) printWhole (failingHost lost) "settings.conf" staleScene

/-- The file cannot be renamed into place, or nothing fails. -/
theorem all_or_nothing_iff_staleScene :
    ((staleCycle [6]).1.isOk = false ∧
      AllOrNothing (fun a b => decide (a ≤ b)) printWhole "settings.conf" staleScene
        (staleCycle [6])) ∧
    (staleCycle []).1.isOk = true ∧
      AllOrNothing (fun a b => decide (a ≤ b)) printWhole "settings.conf" staleScene
        (staleCycle []) := by
  have hlost : (staleCycle [6]).1.isOk = false := by decide +kernel
  have hdone : (staleCycle []).1.isOk = true := by decide +kernel
  refine ⟨⟨hlost, (all_or_nothing_iff Session.idle_new).2 (.inl fun h => ?_)⟩, hdone,
    (all_or_nothing_iff Session.idle_new).2 (.inl fun h => ?_)⟩
  · exact absurd (h.1.passes 6 (by decide)) (by decide)
  · obtain ⟨i, -, hfails⟩ := h.2
    cases hfails

end OpenGroupware
