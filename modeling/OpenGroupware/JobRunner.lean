import OpenGroupware.Db

/-!
`job-runner`: reconciliation of accounts that were left pending.
-/

namespace OpenGroupware

/-- The loop of `reconcile_once`: provision each account outside any
transaction, then persist the result in a transaction of its own. -/
def reconcileEach : List PendingRow → Nat → DbM Nat
  | [], activated => return activated
  | row :: rest, activated => do
      match ← (provision row.email row.displayName : Program _) with
      | .error _ => reconcileEach rest activated
      | .ok sesameUserId =>
          platformTx
          let updated ← query (.activatePending row.id sesameUserId)
          if updated = 1 then
            record .control
              { tenantId := some row.tenantId
                actor := "job-runner"
                action := "account.reconciled"
                entityType := "account"
                entityId := row.id.toText
                payload := .obj [("sesame_user_id", .str sesameUserId.toText)] }
            commit
            reconcileEach rest (activated + 1)
          else
            commit
            reconcileEach rest activated

/-- One reconciliation cycle; the number of accounts activated. -/
def reconcileOnce (batch : Int) : DbM Nat := do
  platformTx
  let pending ← query (.selectPending batch)
  commit
  reconcileEach pending 0

end OpenGroupware
