import OpenGroupware.Relational.Table
import OpenGroupware.Relational.Logic
import OpenGroupware.Relational.Limit
import OpenGroupware.Relational.Agree
import OpenGroupware.Transactional.Prog
import OpenGroupware.Transactional.System
import OpenGroupware.Transactional.Outline
import OpenGroupware.Transactional.Record
import OpenGroupware.Transactional.Replay
import OpenGroupware.Transactional.Guided
import OpenGroupware.Transactional.Told
import OpenGroupware.Transactional.Eval
import OpenGroupware.Transactional.Unwinding
import OpenGroupware.Transactional.Alone
import OpenGroupware.Transactional.Faults
import OpenGroupware.Transactional.Progress
import OpenGroupware.Transactional.Snapshot
import OpenGroupware.Transactional.Commits
import OpenGroupware.Transactional.Worker
import OpenGroupware.Text.Regular
import OpenGroupware.Text.Ucl
import OpenGroupware.Text.Search
import OpenGroupware.Text.Base64
import OpenGroupware.Relational.Ordered
import OpenGroupware.JsonSchema
import OpenGroupware.Types
import OpenGroupware.Schema
import OpenGroupware.Statements
import OpenGroupware.StatementLemmas
import OpenGroupware.Db
import OpenGroupware.AdminApi
import OpenGroupware.AbuseApi
import OpenGroupware.JobRunner
import OpenGroupware.Consistency
import OpenGroupware.Services
import OpenGroupware.Transactions
import OpenGroupware.Outlines
import OpenGroupware.Audit
import OpenGroupware.Quarantine
import OpenGroupware.Reconcile
import OpenGroupware.Activation
import OpenGroupware.Directory
import OpenGroupware.Suspension
import OpenGroupware.Reconcilers
import OpenGroupware.Isolation
import OpenGroupware.Evaluation
import OpenGroupware.Validation
import OpenGroupware.Fulfilment
import OpenGroupware.Compiler
import OpenGroupware.Policies
import OpenGroupware.Settings
import OpenGroupware.Routing
import OpenGroupware.Thresholds
import OpenGroupware.Compilation
import OpenGroupware.SchemaGate
import OpenGroupware.Timed.Prog
import OpenGroupware.Timed.System
import OpenGroupware.Remote.Client
import OpenGroupware.Serde
import OpenGroupware.Auth
import OpenGroupware.Verification
import OpenGroupware.Expiry
import OpenGroupware.Jwks
import OpenGroupware.Revocation
import OpenGroupware.Authentication
import OpenGroupware.Authorization
import OpenGroupware.MockIdp
import OpenGroupware.Sesame
import OpenGroupware.Provisioning
import OpenGroupware.Progress
import OpenGroupware.Snapshots
import OpenGroupware.Journal
import OpenGroupware.Accountability
import OpenGroupware.Console
import OpenGroupware.Pipeline
