import OpenGroupware.Statements
import OpenGroupware.JsonSchema
import OpenGroupware.Relational.Ordered
import Mathlib.Data.String.Basic

/-!
`config-compiler`: desired state of the control plane into Rspamd settings. A
cycle reads the active tenants and domains, renders a document, validates it,
writes the settings file and records the compilation in the audit log.
-/

namespace OpenGroupware

open Relational Transactional Text

/-! ### The query -/

/-- The thresholds of a tenant without a policy. -/
def REJECT : F64 := .fin 15

def ADD_HEADER : F64 := .fin 6

def GREYLIST : F64 := .fin 4

/-- `slug, fqdn, reject, add_header, greylist`. -/
structure PolicyRow where
  slug : String
  fqdn : String
  reject : F64
  addHeader : F64
  greylist : F64

namespace Sql

/-- Active tenants joined with their active domains, and with their policies
where they have one. -/
def joinPolicies (s : Session) (d : Database) : List PolicyRow :=
  (d.tenants.rows.filter fun t => s.sees (some t.id) && decide (t.status = .active)).flatMap
    fun t =>
      let ap := (d.abusePolicy.find? t.id).filter fun p => s.sees (some p.tenantId)
      (d.domains.rows.filter fun m =>
          s.sees (some m.tenantId) && decide (m.tenantId = t.id) && decide (m.status = .active)).map
        fun m =>
          { slug := t.slug
            fqdn := m.fqdn
            reject := (ap.map (·.reject)).getD REJECT
            addHeader := (ap.map (·.addHeader)).getD ADD_HEADER
            greylist := (ap.map (·.greylist)).getD GREYLIST }

/-- `ORDER BY t.slug, d.fqdn`, in the collation of the database. -/
def policyOrder (collate : String → String → Bool) (a b : PolicyRow) : Bool :=
  !collate b.slug a.slug || (collate a.slug b.slug && collate a.fqdn b.fqdn)

def selectPolicies (collate : String → String → Bool) (s : Session) (d : Database) :
    List PolicyRow :=
  (joinPolicies s d).insertionSort fun a b => policyOrder collate a b = true

end Sql

/-- The statements of the compiler. -/
inductive CompilerStmt : Type → Type
  | setConfig (setting : Setting) (value : String) : CompilerStmt Unit
  | insertAudit (plane : Plane) (entry : AuditEntry) : CompilerStmt Unit
  | selectPolicies : CompilerStmt (List PolicyRow)

/-- PostgreSQL as the compiler uses it. -/
def compilerPostgres (collate : String → String → Bool) :
    Engine CompilerStmt Session Oracle Database Write DbError where
  exec
    | .setConfig setting value, s, o, d => Sql.exec (.setConfig setting value) s o d
    | .insertAudit plane entry, s, o, d => Sql.exec (.insertAudit plane entry) s o d
    | .selectPolicies, s, _, d => .ok (Sql.selectPolicies collate s d, s, [])
  openTx := Session.openTx
  closeTx := Session.closeTx
  apply := Write.apply
  clash := Write.clash
  fresh := Oracle.Fresh
  failure := .connection

/-! ### Grouping -/

structure TenantPolicy where
  slug : String
  settingsId : String
  domains : List String
  reject : F64
  addHeader : F64
  greylist : F64

/-- The value of the map the rows are grouped into. -/
structure Grouped where
  domains : List String
  reject : F64
  addHeader : F64
  greylist : F64

/-- Thresholds are taken from the first row of a tenant. -/
def Grouped.first (r : PolicyRow) : Grouped := ⟨[], r.reject, r.addHeader, r.greylist⟩

def Grouped.push (g : Grouped) (r : PolicyRow) : Grouped :=
  { g with domains := g.domains ++ [r.fqdn] }

def groupRows (rows : List PolicyRow) : Ordered String Grouped :=
  Ordered.group PolicyRow.slug Grouped.first Grouped.push rows

/-- A settings id: a stable, UCL-safe identifier for a slug. -/
def settingsId (slug : String) : String :=
  "tenant_" ++ String.ofList (slug.toList.map fun c => if c = '-' then '_' else c)

def tenantPolicy (slug : String) (g : Grouped) : TenantPolicy where
  slug := slug
  settingsId := settingsId slug
  domains := g.domains
  reject := g.reject
  addHeader := g.addHeader
  greylist := g.greylist

def tenantPolicies (rows : List PolicyRow) : List TenantPolicy :=
  (groupRows rows).entries.map fun e => tenantPolicy e.1 e.2

/-! ### Rendering -/

/-- The structure that is validated before it is written as UCL. -/
def renderDoc (policies : List TenantPolicy) : Json :=
  .obj [("version", .int 1), ("tenants", .arr (policies.map fun p =>
    .obj [("slug", .str p.slug), ("settings_id", .str p.settingsId),
      ("domains", .arr (p.domains.map Json.str)),
      ("actions", .obj [("reject", .ofF64 p.reject), ("add_header", .ofF64 p.addHeader),
        ("greylist", .ofF64 p.greylist)])]))]

/-- `[a-z0-9_]`. -/
def settingsChars : List Char := lowerAlnum ++ ['_']

/-- `^tenant_[a-z0-9_]+$`. -/
def settingsIdPattern : RegularExpression Char :=
  "tenant_".toList.foldr (fun c p => .char c * p) (plus (oneOf settingsChars))

def settingsSchema : Schema :=
  .type .object <| .required ["version", "tenants"] <|
  .property "version" (.type .integer <| .minimum 1 .any) <|
  .property "tenants"
    (.type .array <| .items
      (.type .object <| .required ["slug", "settings_id", "domains", "actions"] <|
        .property "slug" (.type .string <| .minLength 1 .any) <|
        .property "settings_id" (.type .string <| .pattern settingsIdPattern .any) <|
        .property "domains"
          (.type .array <| .minItems 1 <| .items (.type .string <| .minLength 1 .any) .any) <|
        .property "actions"
          (.type .object <| .required ["reject", "add_header", "greylist"] <|
            .property "reject" (.type .number .any) <|
            .property "add_header" (.type .number .any) <|
            .property "greylist" (.type .number .any) .any) .any) .any) .any

def header : String :=
  "# GENERATED by opengroupware config-compiler — DO NOT EDIT.\n" ++
  "# Rspamd settings-module content for local.d/settings.conf.\n" ++
  "# Source: control-plane desired state (active tenants + domains).\n"

/-- A domain-anchored expression for a domain, its dots escaped. -/
def rcptEntry (fqdn : String) : String :=
  "\"/@" ++ String.ofList (fqdn.toList.flatMap fun c => if c = '.' then ['\\', '.'] else [c]) ++
    "$/\""

/-- The block of a tenant; `print` is how a threshold is formatted. -/
def settingsBlock (print : F64 → String) (p : TenantPolicy) : String :=
  p.settingsId ++ " \x7b\n  priority = 10;\n  rcpt = [" ++
    ", ".intercalate (p.domains.map rcptEntry) ++
    "];\n  apply \x7b\n    actions \x7b\n      reject = " ++ print p.reject ++
    ";\n      add_header = " ++ print p.addHeader ++
    ";\n      greylist = " ++ print p.greylist ++ ";\n    \x7d\n  \x7d\n\x7d\n"

def renderUcl (print : F64 → String) (policies : List TenantPolicy) : String :=
  policies.foldl (fun s p => s ++ settingsBlock print p) header

/-! ### A compile cycle -/

structure IoError where
  message : String

/-- The file-system operations of `write_atomic`. -/
inductive FsCall
  /-- Create the directory part of a path, if there is one. -/
  | createParent (path : String)
  | create (path : String)
  | writeAll (path contents : String)
  | flush (path : String)
  | rename (source target : String)

/-- The messages of schema violations are those of the validator. -/
inductive CompileError
  | db (e : DbError)
  | schema
  | io (path : String) (source : IoError)

abbrev CompilerProgram (α : Type) : Type 1 :=
  Prog CompilerStmt DbError FsCall (Except IoError Unit) α

/-- `Result<α, CompileError>`. -/
abbrev Compile (α : Type) : Type 1 := ExceptT CompileError CompilerProgram α

namespace Compile

def begin : Compile Unit :=
  ExceptT.mk (.start fun r => .ret (r.mapError CompileError.db))

def query {R : Type} (q : CompilerStmt R) : Compile R :=
  ExceptT.mk (.stmt q fun r => .ret (r.mapError CompileError.db))

def commit : Compile Unit :=
  ExceptT.mk (.commit fun r => .ret (r.mapError CompileError.db))

/-- An operation on behalf of the settings file at `path`. -/
def fs (path : String) (x : FsCall) : Compile Unit :=
  ExceptT.mk (.call x fun r => .ret (r.mapError (CompileError.io path)))

def platformTx : Compile Unit := do
  begin
  query (.setConfig .isPlatformAdmin "true")

end Compile

open Compile in
def loadPolicies : Compile (List TenantPolicy) := do
  platformTx
  let rows ← query .selectPolicies
  commit
  return tenantPolicies rows

open Compile in
/-- Write a file through a temporary one next to it. -/
def writeAtomic (path contents : String) : Compile Unit := do
  fs path (.createParent path)
  let tmp := path ++ ".tmp"
  fs path (.create tmp)
  fs path (.writeAll tmp contents)
  fs path (.flush tmp)
  fs path (.rename tmp path)

open Compile in
/-- One compile cycle; returns the number of tenants written. -/
def compileOnce (print : F64 → String) (outPath : String) : Compile Nat := do
  let policies ← loadPolicies
  if settingsSchema.valid (renderDoc policies) then
    writeAtomic outPath (renderUcl print policies)
    let domains := (policies.map fun p => p.domains.length).sum
    platformTx
    query (.insertAudit .control
      { tenantId := none
        actor := "config-compiler"
        action := "config.compiled"
        entityType := "rspamd_settings"
        entityId := outPath
        payload := .obj [("tenants", .int policies.length), ("domains", .int domains)] })
    commit
    return policies.length
  else
    throw .schema

end OpenGroupware
