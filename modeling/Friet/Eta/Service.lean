import Friet.Events
import Friet.Eta.Alerts
import Friet.Lib.Session

/-!
# ETA and ETD versions: `EtaService`

Every version is a new record, and the leg's own ETA or ETD is set to it. A new ETA
brings new versions of the legs after it, each with the next number of its own.
-/

set_option autoImplicit false

namespace Friet.Eta

open Session

structure ShipmentLeg where
  id : Uuid
  shipmentId : Uuid
  origin : String
  destination : String
  etd : Option Instant
  eta : Option Instant
  createdAt : Timestamp

structure EtaHistory where
  id : Uuid
  shipmentId : Uuid
  legId : Uuid
  type : VersionType
  version : ℕ
  value : Instant
  source : String
  reason : Option String
  recordedBy : Option Uuid
  recordedAt : Timestamp
  deriving DecidableEq

instance : Keyed ShipmentLeg := ⟨ShipmentLeg.id⟩
instance : Keyed EtaHistory := ⟨EtaHistory.id⟩

structure CustomerNotification where
  alert : Alert
  notificationChannel : String
  message : String

structure RecordedValue where
  type : VersionType
  version : ℕ
  value : Instant
  source : String

structure EtaDatabase where
  shipmentLegs : Table ShipmentLeg
  etaHistory : Table EtaHistory
  outboxEvents : Table (OutboxEvent CustomerNotification)
  auditLogs : Table (AuditLog RecordedValue)

abbrev EtaM := EStateM AppError EtaDatabase

/-- The orders are those in which the queries return legs created at the same time, and
records of the same version. -/
structure RecordVersion where
  shipmentId : Uuid
  legId : Uuid
  type : String
  value : Instant
  source : String
  reason : Option String
  recordedBy : Option Uuid
  tenantId : Option Uuid
  hasFirmDeliveryCommitment : Bool
  now : Timestamp
  legOrder : RowOrder ShipmentLeg
  historyOrder : RowOrder EtaHistory

structure CascadedUpdate where
  record : CascadeRecord
  version : ℕ

structure RecordedVersion where
  id : Uuid
  shipmentId : Uuid
  legId : Uuid
  type : VersionType
  version : ℕ
  value : Instant
  source : String
  reason : Option String
  recordedBy : Option Uuid
  recordedAt : Timestamp
  cascadedUpdates : List CascadedUpdate
  alerts : List Alert

def validSources : List String :=
  ["QUOTATION", "BOOKING", "CARRIER_API", "MANUAL", "TERMINAL", "AUTO_CASCADE"]

def versionOf (legId : Uuid) (type : VersionType) (r : EtaHistory) : Prop :=
  r.legId = legId ∧ r.type = type

instance (legId : Uuid) (type : VersionType) : DecidablePred (versionOf legId type) :=
  fun _ => inferInstanceAs (Decidable (_ ∧ _))

/-- One above the highest version, or 1. -/
def nextVersion (legId : Uuid) (type : VersionType) (db : EtaDatabase) : ℕ :=
  ((db.etaHistory.rows.filter (versionOf legId type ·)).map (·.version)).foldr max 0 + 1

def ShipmentLeg.setTime (type : VersionType) (value : Instant) (l : ShipmentLeg) : ShipmentLeg :=
  match type with
  | .eta => { l with eta := some value }
  | .etd => { l with etd := some value }

theorem keepsKey_setTime (type : VersionType) (value : Instant) :
    KeepsKey (ShipmentLeg.setTime type value) := ⟨fun _ => by cases type <;> rfl⟩

def newVersion (a : RecordVersion) (r : CascadeRecord) (version : ℕ) (id : Uuid) : EtaHistory where
  id := id
  shipmentId := a.shipmentId
  legId := r.legId
  type := r.type
  version := version
  value := r.value
  source := r.source
  reason := r.reason
  recordedBy := a.recordedBy
  recordedAt := a.now

theorem takesKey_newVersion (a : RecordVersion) (r : CascadeRecord) (version : ℕ) :
    TakesKey (newVersion a r version) := ⟨fun _ => rfl⟩

/-- Add the record, and set the leg's own time to it. -/
def writeVersion (a : RecordVersion) (db : EtaDatabase) (r : CascadeRecord) : EtaDatabase :=
  { db with
    etaHistory := db.etaHistory.insert (newVersion a r (nextVersion r.legId r.type db))
      (takesKey_newVersion a r _)
    shipmentLegs := db.shipmentLegs.update r.legId (ShipmentLeg.setTime r.type r.value)
      (keepsKey_setTime r.type r.value) }

def writeCascade (a : RecordVersion) :
    List CascadeRecord → EtaDatabase → List CascadedUpdate × EtaDatabase
  | [], db => ([], db)
  | r :: plan, db =>
    let (updates, db') := writeCascade a plan (writeVersion a db r)
    (⟨r, nextVersion r.legId r.type db⟩ :: updates, db')

/-- `order_by(created_at.asc())`. -/
def createdEarlier (l m : ShipmentLeg) : Prop := l.createdAt ≤ m.createdAt

instance : DecidableRel createdEarlier :=
  fun l m => inferInstanceAs (Decidable (l.createdAt ≤ m.createdAt))

def legsOf (order : RowOrder ShipmentLeg) (shipmentId : Uuid) (db : EtaDatabase) :
    List ShipmentLeg :=
  (order.arrange (db.shipmentLegs.rows.filter (·.shipmentId = shipmentId))).insertionSort
    createdEarlier

def ShipmentLeg.dict (l : ShipmentLeg) : CascadeLeg := ⟨l.id, l.origin, l.destination, l.etd, l.eta⟩

def EtaHistory.dict (r : EtaHistory) : EtaRecord :=
  ⟨r.shipmentId, r.legId, r.type, r.version, r.value⟩

def lowerVersion (r s : EtaHistory) : Prop := r.version ≤ s.version

instance : DecidableRel lowerVersion :=
  fun r s => inferInstanceAs (Decidable (r.version ≤ s.version))

def historyOf (order : RowOrder EtaHistory) (shipmentId : Uuid) (db : EtaDatabase) :
    List EtaHistory :=
  (order.arrange (db.etaHistory.rows.filter (·.shipmentId = shipmentId))).insertionSort
    lowerVersion

section RecordVersion
variable [Text] [EtaText]

def cascadePlan (a : RecordVersion) (type : VersionType) (db : EtaDatabase) : List CascadeRecord :=
  match type with
  | .eta =>
    calculateLegCascade ((legsOf a.legOrder a.shipmentId db).map ShipmentLeg.dict) a.legId a.value
  | .etd => []

def notify (a : RecordVersion) (tenantId : Uuid) (db : EtaDatabase) (alert : Alert) : EtaDatabase :=
  if alert.publishCustomerNotification then
    { db with
      outboxEvents := OutboxService.enqueue "customer.notification" tenantId "shipment" a.shipmentId
        ⟨alert, "EMAIL_AND_PORTAL", alert.message⟩ a.now db.outboxEvents }
  else db

/-- The notifications and the audit record, for a request that names its tenant. -/
def publish (a : RecordVersion) (recorded : RecordedValue) (alerts : List Alert)
    (db : EtaDatabase) : EtaDatabase :=
  match a.tenantId with
  | none => db
  | some tenantId =>
    let db := alerts.foldl (notify a tenantId) db
    { db with
      auditLogs := AuditService.record (some tenantId) a.recordedBy "shipment_leg" (uuidStr a.legId)
        "eta.version_recorded" none (some recorded) db.auditLogs }

def recordVersion (a : RecordVersion) : EtaM RecordedVersion := do
  let type ← orFail (VersionType.parse (upper (strip a.type)))
    (.validation s!"Invalid type '{a.type}'. Must be 'ETA' or 'ETD'.")
  let source := upper (strip a.source)
  failIf (source ∉ validSources)
    (.validation s!"Invalid source '{a.source}'. Must be one of {setStr validSources}.")
  let db ← get
  let _ ← orFail (db.shipmentLegs.findWhere a.legId (·.shipmentId = a.shipmentId))
    (.notFound s!"Shipment leg {uuidStr a.legId} not found on shipment {uuidStr a.shipmentId}")
  let version := nextVersion a.legId type db
  let id := db.etaHistory.freshKey
  modify (writeVersion a · ⟨a.legId, type, a.value, source, a.reason⟩)
  let db ← get
  let updates ← modifyGet (writeCascade a (cascadePlan a type db))
  let db ← get
  let alerts := evaluateEtaDeviations
    ((historyOf a.historyOrder a.shipmentId db).map EtaHistory.dict) a.hasFirmDeliveryCommitment
  modify (publish a ⟨type, version, a.value, source⟩ alerts)
  pure
    { id, shipmentId := a.shipmentId, legId := a.legId, type, version, value := a.value, source
      reason := a.reason, recordedBy := a.recordedBy, recordedAt := a.now
      cascadedUpdates := updates, alerts }

def step (db : EtaDatabase) (a : RecordVersion) : EtaDatabase := commit (recordVersion a) db

end RecordVersion

end Friet.Eta
