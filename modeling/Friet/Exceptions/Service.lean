import Friet.Database

/-!
# Shipment exceptions opened and updated by users

`ExceptionService.create_exception` and `update_exception`.
-/

set_option autoImplicit false

namespace Friet.Exceptions

open Session

structure ExceptionTypeConfig where
  code : String
  domain : String
  defaultSeverity : Severity

def defaultExceptionTaxonomy : List ExceptionTypeConfig :=
  [⟨"SHIPMENT_DELAY", "CARRIER", .warning⟩,
   ⟨"VESSEL_ROLL", "CARRIER", .critical⟩,
   ⟨"CARGO_HOLD", "OPERATIONAL", .warning⟩,
   ⟨"CUSTOMS_HOLD", "CUSTOMS", .critical⟩,
   ⟨"MISSING_DOCUMENT", "DOCUMENTATION", .warning⟩,
   ⟨"DGR_ISSUE", "DOCUMENTATION", .critical⟩,
   ⟨"CARGO_DAMAGE", "OPERATIONAL", .critical⟩,
   ⟨"CARGO_LOSS", "OPERATIONAL", .critical⟩,
   ⟨"SHORT_SHIPMENT", "OPERATIONAL", .warning⟩,
   ⟨"WRONG_DELIVERY", "OPERATIONAL", .critical⟩,
   ⟨"RETURNED_TO_SHIPPER", "BOOKING", .warning⟩,
   ⟨"SECURITY_HOLD", "CUSTOMS", .critical⟩,
   ⟨"WEATHER_DELAY", "CARRIER", .info⟩,
   ⟨"EQUIPMENT_FAILURE", "CARRIER", .critical⟩]

def aliases : List (String × String) :=
  [("DELAY", "SHIPMENT_DELAY"), ("ROLL", "VESSEL_ROLL"), ("HOLD", "CARGO_HOLD"),
   ("DAMAGE", "CARGO_DAMAGE"), ("LOSS", "CARGO_LOSS"), ("RETURNED", "RETURNED_TO_SHIPPER")]

def validDomains : List String := ["BOOKING", "DOCUMENTATION", "CUSTOMS", "CARRIER", "OPERATIONAL"]

def validSeverities : List String := ["INFO", "WARNING", "CRITICAL"]

def parseSeverity : String → Option Severity
  | "INFO" => some .info
  | "WARNING" => some .warning
  | "CRITICAL" => some .critical
  | _ => none

def resolveExceptionType [Text] (typeInput : String) : Option ExceptionTypeConfig :=
  let norm := upper (strip typeInput)
  let resolvedCode := (aliases.lookup norm).getD norm
  defaultExceptionTaxonomy.find? (·.code = resolvedCode)

structure CreateException where
  shipmentId : Uuid
  exceptionType : String
  description : String
  severity : Option String
  domain : Option String
  financialImpactEstimated : Money
  ownerId : Option Uuid

/-- `severity.upper() if severity else tax_config.default_severity`, or the refused name. -/
def finalSeverity [Text] (a : CreateException) (config : ExceptionTypeConfig) :
    Except String Severity :=
  match given a.severity with
  | none => .ok config.defaultSeverity
  | some s =>
    match parseSeverity (upper s) with
    | some severity => .ok severity
    | none => .error (upper s)

def finalDomain [Text] (a : CreateException) (config : ExceptionTypeConfig) : String :=
  match given a.domain with
  | none => config.domain
  | some d => upper d

def exceptionRow (caller : Caller) (a : CreateException) (config : ExceptionTypeConfig)
    (severity : Severity) (domain : String) (id : Uuid) : ShipmentException where
  id := id
  tenantId := caller.tenantId
  shipmentId := a.shipmentId
  exceptionType := config.code
  severity := severity
  domain := domain
  status := .opened
  description := a.description
  financialImpactEstimated := column 2 a.financialImpactEstimated
  ownerId := a.ownerId
  openedAt := caller.now
  acknowledgedAt := none
  resolvedAt := none
  resolutionNotes := none

/-- The shipment may be of another tenant. -/
def createException [Text] (caller : Caller) (a : CreateException) : Service ShipmentException := do
  let config ← orFail (resolveExceptionType a.exceptionType)
    (.validation s!"Invalid exception type '{a.exceptionType}'.")
  let severity ← match finalSeverity a config with
    | .ok severity => pure severity
    | .error name => throw (.validation
        s!"Invalid severity '{name}'. Must be one of {setStr validSeverities}")
  let domain := finalDomain a config
  failIf (domain ∉ validDomains)
    (.validation s!"Invalid domain '{domain}'. Must be one of {setStr validDomains}")
  let db ← get
  let _ ← orFail (db.shipments.find? a.shipmentId)
    (.notFound s!"Shipment {uuidStr a.shipmentId} not found.")
  let id ← addShipmentException (exceptionRow caller a config severity domain)
  pure (exceptionRow caller a config severity domain id)

def validStatuses : List String :=
  ["OPEN", "ACKNOWLEDGED", "UNDER_INVESTIGATION", "RESOLVED", "CLOSED"]

def parseExceptionStatus : String → Option ExceptionStatus
  | "OPEN" => some .opened
  | "ACKNOWLEDGED" => some .acknowledged
  | "UNDER_INVESTIGATION" => some .underInvestigation
  | "RESOLVED" => some .resolved
  | "CLOSED" => some .closed
  | _ => none

/-- `{"RESOLVED", "CLOSED"}`. -/
def isSettled (status : ExceptionStatus) : Prop := status = .resolved ∨ status = .closed

instance : DecidablePred isSettled := fun _ => inferInstanceAs (Decidable (_ ∨ _))

structure UpdateException where
  exceptionId : Uuid
  status : Option String
  ownerId : Option Uuid
  resolutionNotes : Option String
  financialImpactEstimated : Option Money

/-- The status that is asked for, if one is. -/
def newStatus [Text] (a : UpdateException) : Except AppError (Option ExceptionStatus) :=
  match given a.status with
  | none => .ok none
  | some s =>
    match parseExceptionStatus (upper (strip s)) with
    | some status => .ok (some status)
    | none => .error (.validation
        s!"Invalid status '{upper (strip s)}'. Must be one of {setStr validStatuses}")

def setStatus (now : Timestamp) (status : ExceptionStatus) (e : ShipmentException) :
    ShipmentException :=
  if status = .acknowledged ∧ e.acknowledgedAt = none then
    { e with status := status, acknowledgedAt := some now }
  else if isSettled status ∧ e.resolvedAt = none then
    { e with status := status, resolvedAt := some now }
  else { e with status := status }

def assignOwner (now : Timestamp) (ownerId : Uuid) (e : ShipmentException) : ShipmentException :=
  { e with ownerId := some ownerId, acknowledgedAt := some (e.acknowledgedAt.getD now) }

def updateRow (now : Timestamp) (a : UpdateException) (status : Option ExceptionStatus)
    (e : ShipmentException) : ShipmentException :=
  let moved := status.elim e (setStatus now · e)
  let assigned := a.ownerId.elim moved (assignOwner now · moved)
  { assigned with
    resolutionNotes := a.resolutionNotes.or e.resolutionNotes
    financialImpactEstimated :=
      (a.financialImpactEstimated.map (column 2)).getD e.financialImpactEstimated }

@[simp] theorem setStatus_id (now : Timestamp) (status : ExceptionStatus) (e : ShipmentException) :
    (setStatus now status e).id = e.id := by
  unfold setStatus
  split_ifs <;> rfl

theorem keepsKey_updateRow (now : Timestamp) (a : UpdateException)
    (status : Option ExceptionStatus) : KeepsKey (updateRow now a status) := by
  refine ⟨fun e => ?_⟩
  unfold updateRow
  cases status <;> cases a.ownerId <;> simp [Keyed.key, assignOwner]

/-- The answer tells the amount as it was given, the row as its column keeps it. -/
def updateException [Text] (caller : Caller) (a : UpdateException) : Service ShipmentException := do
  let db ← get
  let e ← orFail (db.shipmentExceptions.findWhere a.exceptionId (·.tenantId = caller.tenantId))
    (.notFound s!"Exception {uuidStr a.exceptionId} not found.")
  let status ← orRaise (newStatus a)
  modify fun db =>
    { db with
      shipmentExceptions := db.shipmentExceptions.update e.id (updateRow caller.now a status)
        (keepsKey_updateRow ..) }
  pure { updateRow caller.now a status e with
    financialImpactEstimated := a.financialImpactEstimated.getD e.financialImpactEstimated }

end Friet.Exceptions
