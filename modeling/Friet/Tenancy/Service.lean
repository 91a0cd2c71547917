import Friet.Documents.Portal
import Friet.Eta.Service
import Friet.Exceptions.Escalations
import Friet.Tracking.Service

/-!
# Calls on a shipment, by the tenant they are made for

What the endpoints ask of the document, ETA, exception and tracking services, over the
one database they share. Some look the shipment up by its tenant too, and most by its
identifier alone. Requests commit at their end.
-/

set_option autoImplicit false

namespace Friet.Tenancy

open Session
open Auth (AccessError)
open Documents (Document DocumentDatabase DocumentStatus DocumentVersion ListedDocument)
open Eta (EtaDatabase EtaHistory EtaText RecordVersion RecordedVersion ShipmentLeg)
open Exceptions (Escalation EscalationText EscalatedException)
open Tracking (GetTimeline TimelineEntry TrackingEvent)

structure DocumentAccessLog where
  id : Uuid
  documentId : Uuid
  userId : Option Uuid
  action : String
  ipAddress : Option String
  timestamp : Timestamp
  deriving DecidableEq

instance : Keyed DocumentAccessLog := ⟨DocumentAccessLog.id⟩

structure ApprovalValue where
  status : DocumentStatus
  notes : Option String

structure ExceptionValue where
  exceptionType : String
  severity : Severity
  domain : String
  status : ExceptionStatus

structure EscalationNotice where
  exceptionId : Uuid
  shipmentId : Uuid
  escalation : Escalation
  exceptionType : String
  severity : Severity

/-- The audit trail and the outbox are kept by service, as what their rows carry differs. -/
structure ServiceDatabase extends DocumentDatabase where
  documentAccessLogs : Table DocumentAccessLog
  documentAudit : Table (AuditLog ApprovalValue)
  eta : EtaDatabase
  trackingEvents : Table TrackingEvent
  exceptionAudit : Table (AuditLog ExceptionValue)
  exceptionEvents : Table (OutboxEvent EscalationNotice)

inductive TenancyError where
  | app (error : AppError)
  | access (error : AccessError)
  deriving DecidableEq

abbrev TenancyM := EStateM TenancyError ServiceDatabase

/-- How the database returns the rows that a query does not order. -/
structure RowOrders where
  documents : RowOrder Document
  versions : RowOrder DocumentVersion
  legs : RowOrder ShipmentLeg
  history : RowOrder EtaHistory
  events : RowOrder TrackingEvent

def RowOrders.stored : RowOrders := ⟨.stored, .stored, .stored, .stored, .stored⟩

def onDocuments {α : Type} (x : EStateM AppError DocumentDatabase α) : TenancyM α :=
  onPart ServiceDatabase.toDocumentDatabase
    (fun t db => { db with toDocumentDatabase := t }) TenancyError.app x

structure ListShipmentDocuments where
  shipmentId : Uuid
  userRoles : List String
  isPortal : Bool
  customerId : Option Uuid

def listShipmentDocuments (o : RowOrders) (caller : Caller) (a : ListShipmentDocuments) :
    TenancyM (List ListedDocument) := do
  let db ← get
  orRaise ((Documents.listShipmentDocuments o.documents a.shipmentId caller.tenantId a.userRoles
    a.isPortal a.customerId db.toDocumentDatabase).mapError TenancyError.access)

def accessLog (documentId : Uuid) (userId : Option Uuid) (action : String)
    (ipAddress : Option String) (timestamp : Timestamp) (id : Uuid) : DocumentAccessLog where
  id := id
  documentId := documentId
  userId := userId
  action := action
  ipAddress := ipAddress
  timestamp := timestamp

theorem takesKey_accessLog (documentId : Uuid) (userId : Option Uuid) (action : String)
    (ipAddress : Option String) (timestamp : Timestamp) :
    TakesKey (accessLog documentId userId action ipAddress timestamp) := ⟨fun _ => rfl⟩

def logAccess (documentId : Uuid) (userId : Option Uuid) (action : String)
    (ipAddress : Option String) (timestamp : Timestamp) : TenancyM Unit :=
  modify fun db =>
    { db with
      documentAccessLogs := db.documentAccessLogs.insert
        (accessLog documentId userId action ipAddress timestamp) (takesKey_accessLog ..) }

structure GetDocument where
  documentId : Uuid
  actorId : Option Uuid
  ipAddress : Option String

structure VersionDetail where
  id : Uuid
  versionNumber : ℕ
  fileUrl : String
  fileSize : Option ℕ
  uploadedAt : Timestamp
  changeSummary : Option String
  status : DocumentStatus

structure DocumentDetail where
  id : Uuid
  shipmentId : Uuid
  docType : String
  documentName : Option String
  fileUrl : String
  versionNumber : ℕ
  fileSize : Option ℕ
  mimeType : Option String
  status : DocumentStatus
  isMandatory : Bool
  expiryDate : Option Timestamp
  uploadedAt : Timestamp
  versions : List VersionDetail

def versionDetail (v : DocumentVersion) : VersionDetail where
  id := v.id
  versionNumber := v.versionNumber
  fileUrl := v.fileUrl
  fileSize := v.fileSize
  uploadedAt := v.uploadedAt
  changeSummary := v.changeSummary
  status := v.status

def documentDetail (d : Document) (versions : List DocumentVersion) : DocumentDetail where
  id := d.id
  shipmentId := d.shipmentId
  docType := d.docType
  documentName := d.documentName
  fileUrl := d.fileUrl
  versionNumber := d.versionNumber
  fileSize := d.fileSize
  mimeType := d.mimeType
  status := d.status
  isMandatory := d.isMandatory
  expiryDate := d.expiryDate
  uploadedAt := d.uploadedAt
  versions := versions.map versionDetail

/-- `order_by(desc(version_number))`. -/
def latestVersionFirst (v w : DocumentVersion) : Prop := w.versionNumber ≤ v.versionNumber

instance : DecidableRel latestVersionFirst :=
  fun v w => inferInstanceAs (Decidable (w.versionNumber ≤ v.versionNumber))

def versionsOf (order : RowOrder DocumentVersion) (documentId : Uuid)
    (documentVersions : Table DocumentVersion) : List DocumentVersion :=
  (order.arrange (documentVersions.rows.filter (·.documentId = documentId))).insertionSort
    latestVersionFirst

def logView (caller : Caller) (a : GetDocument) (documentId : Uuid) : TenancyM Unit :=
  match a.actorId with
  | none => pure ()
  | some actorId => logAccess documentId (some actorId) "VIEW" a.ipAddress caller.now

/-- Neither the tenant nor the shipment is asked for. -/
def getDocument (o : RowOrders) (caller : Caller) (a : GetDocument) : TenancyM DocumentDetail := do
  let d ← onDocuments (Documents.findDocument a.documentId)
  let db ← get
  logView caller a d.id
  pure (documentDetail d (versionsOf o.versions a.documentId db.documentVersions))

structure ApproveDocument extends Documents.ApproveDocument where
  notes : Option String
  ipAddress : Option String

structure ApprovedDocument where
  id : Uuid
  status : DocumentStatus
  docType : String

/-- The tenant goes to the audit trail only. -/
def approveDocument [Text] (caller : Caller) (a : ApproveDocument) : TenancyM ApprovedDocument := do
  let d ← onDocuments (Documents.approveDocument a.toApproveDocument)
  logAccess d.id (some caller.actorId) "APPROVE" a.ipAddress caller.now
  modify fun db =>
    { db with
      documentAudit := AuditService.record (some caller.tenantId) (some caller.actorId) "document"
        (uuidStr d.id) "document.approve" none (some ⟨.approved, a.notes⟩) db.documentAudit }
  pure ⟨d.id, .approved, d.docType⟩

/-- The request, on behalf of the caller's tenant. -/
def recordingOf (o : RowOrders) (caller : Caller) (a : RecordVersion) : RecordVersion :=
  { a with
    tenantId := some caller.tenantId
    now := caller.now
    legOrder := o.legs
    historyOrder := o.history }

def onEta {α : Type} (x : EStateM AppError EtaDatabase α) : TenancyM α :=
  onPart ServiceDatabase.eta (fun t db => { db with eta := t }) TenancyError.app x

def recordVersion [Text] [EtaText] (o : RowOrders) (caller : Caller) (a : RecordVersion) :
    TenancyM RecordedVersion :=
  onEta (Eta.recordVersion (recordingOf o caller a))

def onFinance {α : Type} (x : Service α) : TenancyM α :=
  onPart (fun db : ServiceDatabase => db.toDatabase)
    (fun t db => { db with toDocumentDatabase := { db.toDocumentDatabase with toDatabase := t } })
    TenancyError.app x

structure CreateException extends Exceptions.CreateException where
  userId : Option Uuid

structure CreatedException where
  exception : ShipmentException
  escalations : List Escalation

def escalatedException (a : CreateException) (e : ShipmentException) : EscalatedException where
  exceptionType := e.exceptionType
  severity := e.severity
  status := e.status
  ownerId := e.ownerId
  financialImpactEstimated := a.financialImpactEstimated
  openedAt := e.openedAt
  acknowledgedAt := e.acknowledgedAt

def escalationNotice (e : ShipmentException) (x : Escalation) : EscalationNotice where
  exceptionId := e.id
  shipmentId := e.shipmentId
  escalation := x
  exceptionType := e.exceptionType
  severity := e.severity

def announce (caller : Caller) (e : ShipmentException)
    (events : Table (OutboxEvent EscalationNotice)) (x : Escalation) :
    Table (OutboxEvent EscalationNotice) :=
  match given x.outboxEvent with
  | none => events
  | some eventType =>
    OutboxService.enqueue eventType caller.tenantId "shipment_exception" e.id
      (escalationNotice e x) caller.now events

/-- The answer tells the amount as it was given, the row as its column keeps it. -/
def createException [Text] [EscalationText] (caller : Caller) (a : CreateException) :
    TenancyM CreatedException := do
  let e ← onFinance (Exceptions.createException caller a.toCreateException)
  let escalations := Exceptions.evaluateExceptionEscalations (escalatedException a e) caller.now
  modify fun db =>
    { db with
      exceptionEvents := escalations.foldl (announce caller e) db.exceptionEvents
      exceptionAudit := AuditService.record (some caller.tenantId) a.userId "shipment_exception"
        (uuidStr e.id) "exception.created" none
        (some ⟨e.exceptionType, e.severity, e.domain, e.status⟩) db.exceptionAudit }
  pure ⟨{ e with financialImpactEstimated := a.financialImpactEstimated }, escalations⟩

def getTimeline [Text] (o : RowOrders) (a : GetTimeline) : TenancyM (List TimelineEntry) := do
  let db ← get
  orRaise ((Tracking.getTimeline o.events a db.trackingEvents).mapError TenancyError.app)

inductive Call where
  | listShipmentDocuments (a : ListShipmentDocuments)
  | getDocument (a : GetDocument)
  | approveDocument (a : ApproveDocument)
  | recordVersion (a : RecordVersion)
  | createException (a : CreateException)
  | getTimeline (a : GetTimeline)

inductive Answer where
  | documents (listed : List ListedDocument)
  | document (detail : DocumentDetail)
  | approved (document : ApprovedDocument)
  | version (recorded : RecordedVersion)
  | exception (created : CreatedException)
  | timeline (entries : List TimelineEntry)

section Perform
variable [Text] [EtaText] [EscalationText]

def perform (o : RowOrders) (caller : Caller) : Call → TenancyM Answer
  | .listShipmentDocuments a => do pure (.documents (← listShipmentDocuments o caller a))
  | .getDocument a => do pure (.document (← getDocument o caller a))
  | .approveDocument a => do pure (.approved (← approveDocument caller a))
  | .recordVersion a => do pure (.version (← recordVersion o caller a))
  | .createException a => do pure (.exception (← createException caller a))
  | .getTimeline a => do pure (.timeline (← getTimeline o a))

def after (o : RowOrders) (caller : Caller) (c : Call) (db : ServiceDatabase) : ServiceDatabase :=
  commit (perform o caller c) db

end Perform

end Friet.Tenancy
