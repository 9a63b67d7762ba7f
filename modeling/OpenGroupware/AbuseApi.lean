import OpenGroupware.Db

/-!
`abuse-api`: scan decisions and the quarantine workflow.
-/

namespace OpenGroupware

structure RecordDecision where
  messageRef : String
  direction : String := "inbound"
  recipient : String
  sender : String := ""
  score : F32
  action : String
  verdict : String := "ham"
  symbols : Json := .null
  subject : String := ""

structure ReportFeedback where
  verdict : String

def validActions : List String := ["accept", "junk", "quarantine", "reject", "discard"]

def validVerdicts : List String := ["ham", "spam", "phishing", "malware"]

/-- `{:?}` of an array of plain strings. -/
def debugList (ss : List String) : String :=
  "[" ++ ", ".intercalate (ss.map fun s => "\"" ++ s ++ "\"") ++ "]"

/-- The checks at the head of `record_decision`. -/
def validateDecision (req : RecordDecision) : Except ApiError Unit :=
  if !validActions.contains req.action then
    .error (.validation ("action must be one of " ++ debugList validActions))
  else if !validVerdicts.contains req.verdict then
    .error (.validation ("verdict must be one of " ++ debugList validVerdicts))
  else .ok ()

def validateFeedback (req : ReportFeedback) : Except ApiError Unit :=
  if req.verdict != "spam" && req.verdict != "ham" then
    .error (.validation "verdict must be 'spam' or 'ham'")
  else .ok ()

/-- `format!("{} (score {:.1})", req.verdict, req.score)`. -/
def quarantineReason (req : RecordDecision) : String :=
  req.verdict ++ " (score " ++ req.score.toFixed1 ++ ")"

/-- The last steps of `record_decision`. -/
def auditDecision (tenantId : Uuid) (caller : Caller) (req : RecordDecision)
    (decision : AbuseDecision) : Handler Response := do
  record .abuse
    { tenantId := some tenantId
      actor := caller.actor
      action := "abuse.decision"
      entityType := "abuse_decision"
      entityId := decision.id.toText
      payload := .obj [("action", .str req.action), ("verdict", .str req.verdict),
        ("score", .ofF64 req.score), ("message_ref", .str req.messageRef)] }
  commit
  return .created (.decision decision)

def recordDecision (tenantId : Uuid) (caller : Caller) (req : RecordDecision) :
    Handler Response := do
  validateDecision req
  let symbols := if req.symbols.isNull then .arr [] else req.symbols
  tenantTx tenantId
  let decision ← query (.insertDecision tenantId req.messageRef req.direction req.recipient
    req.sender req.score req.action req.verdict symbols)
  -- held messages get a quarantine workflow row
  if req.action = "quarantine" then
    query (.insertItem tenantId decision.id req.messageRef req.recipient req.sender
      req.subject (quarantineReason req))
    auditDecision tenantId caller req decision
  else
    auditDecision tenantId caller req decision

def listQuarantine (tenantId : Uuid) : Handler Response := do
  tenantTx tenantId
  let items ← query .selectHeld
  commit
  return .ok (.items items)

def releaseItem (tenantId itemId : Uuid) (caller : Caller) : Handler Response := do
  tenantTx tenantId
  let some item ← query (.releaseItem itemId caller.actor) | throw .notFound
  record .abuse
    { tenantId := some tenantId
      actor := caller.actor
      action := "quarantine.release"
      entityType := "quarantine_item"
      entityId := item.id.toText
      payload := .obj [("message_ref", .str item.messageRef)] }
  commit
  return .ok (.item item)

def reportItem (tenantId itemId : Uuid) (caller : Caller) (req : ReportFeedback) :
    Handler Response := do
  validateFeedback req
  tenantTx tenantId
  let some item ← query (.reportItem itemId req.verdict) | throw .notFound
  record .abuse
    { tenantId := some tenantId
      actor := caller.actor
      action := "quarantine.report"
      entityType := "quarantine_item"
      entityId := item.id.toText
      payload := .obj [("reported_as", .str req.verdict),
        ("message_ref", .str item.messageRef)] }
  commit
  return .ok (.item item)

end OpenGroupware
